import ClientBridge.Library.Interleave
import ClientBridge.Payments.InvoiceBalances

/-!
# No invoice is credited beyond what it owes

The receivable and what pending refunds will give back make up the invoice's face less what each
payment and application weighs on it (`slack_eq`).  Who takes from it has read that it fits, and under
the row lock that stays true.  It does not where a deposit application or an enrolment's cancellation
overlaps another transaction that takes from it (`Overlaps`), nor where an invoice is voided after
what was paid on it was refunded (`VoidsGivenBack`), for the refund has reversed its revenue already.
-/

namespace ClientBridge

open Runs

/-! ## What weighs on an invoice -/

/-- What a payment weighs on the invoice: what it credited less what comes back of it. -/
def InvoiceCharge.weight (c : InvoiceCharge) : Int := c.credited - c.givingBack

/-- A late refund belongs to a posted payment and returns no more than its tip. -/
structure InvoiceCharge.Sound (c : InvoiceCharge) : Prop where
  posted : c.late.isSome → c.posted = true
  tip : ∀ tip, c.late = some (.booked tip) → tip ≤ c.tipCents

/-- What the receivable has left once the pending refunds are booked. -/
def IssuedInvoice.slack (s : IssuedInvoice) : Int := s.receivable + s.givingBack

theorem IssuedInvoice.slack_eq (s : IssuedInvoice) : s.slack = s.face - (s.charges.map (·.weight)).sum - s.applied := by
  have hw : (s.charges.map (·.weight)).sum = (s.charges.map (·.credited)).sum - s.givingBack := by
    unfold givingBack
    induction s.charges with
    | nil => rfl
    | cons c cs ih =>
      have hc : c.weight = c.credited - c.givingBack := rfl
      simp only [List.map_cons, List.sum_cons, ih, hc]
      omega
  unfold slack receivable
  omega

theorem InvoiceCharge.Sound.givingBack_nonneg (c : InvoiceCharge) : 0 ≤ c.givingBack := by
  unfold givingBack
  have := c.net_nonneg
  split
  · exact this
  · exact le_refl 0

theorem IssuedInvoice.receivable_le_slack (s : IssuedInvoice) : s.receivable ≤ s.slack := by
  have h : 0 ≤ s.givingBack := by
    refine List.sum_nonneg fun x hx => ?_
    obtain ⟨c, -, rfl⟩ := List.mem_map.1 hx
    exact InvoiceCharge.Sound.givingBack_nonneg c
  unfold slack
  omega

section
variable {c : InvoiceCharge}

theorem InvoiceCharge.weight_of_none (h : c.late = none) : c.weight = if c.posted then c.net else 0 := by
  simp [weight, credited, givingBack, h]

theorem InvoiceCharge.weight_of_pending (h : c.late = some .pending) (hp : c.posted = true) : c.weight = 0 := by
  simp [weight, credited, givingBack, h, hp]

theorem InvoiceCharge.weight_of_booked {tip : Int} (h : c.late = some (.booked tip)) (hp : c.posted = true) :
    c.weight = tip - c.tipCents := by
  simp only [weight, credited, givingBack, h, hp, if_true, net, Option.some.injEq, reduceCtorEq, if_false]
  omega

/-- A payment that is given back weighs nothing. -/
theorem InvoiceCharge.Sound.weight_late (h : c.Sound) (hl : c.late.isSome) : c.weight ≤ 0 := by
  have hp := h.posted hl
  obtain ⟨late, hlate⟩ := Option.isSome_iff_exists.1 hl
  cases late with
  | pending => rw [InvoiceCharge.weight_of_pending hlate hp]
  | booked tip =>
    rw [InvoiceCharge.weight_of_booked hlate hp]
    have := h.tip tip hlate
    omega

theorem InvoiceCharge.Sound.weight_le (h : c.Sound) : c.weight ≤ c.net := by
  have hn := c.net_nonneg
  cases hl : c.late with
  | none =>
    rw [InvoiceCharge.weight_of_none hl]
    split
    · exact le_refl _
    · exact hn
  | some late => exact (h.weight_late (by rw [hl]; rfl)).trans hn

theorem InvoiceCharge.Sound.weight_nonneg (h : c.late = none) : 0 ≤ c.weight := by
  rw [InvoiceCharge.weight_of_none h]
  have := c.net_nonneg
  split
  · exact this
  · exact le_refl 0

theorem InvoiceCharge.Sound.settled (h : c.Sound) {late : Option LateRefund}
    (ht : ∀ tip, late = some (.booked tip) → tip ≤ c.tipCents) : (c.settled late).Sound where
  posted _ := rfl
  tip tip hl := by
    cases hc : c.late with
    | none => exact ht tip (by simpa [InvoiceCharge.settled, hc] using hl)
    | some l => exact h.tip tip (by simpa [InvoiceCharge.settled, hc] using hl)

/-- Settling a payment takes what it pays off the invoice, and nothing if it is late. -/
theorem InvoiceCharge.Sound.weight_settled (h : c.Sound) {late : Option LateRefund}
    (ht : ∀ tip, late = some (.booked tip) → tip ≤ c.tipCents) :
    (c.settled late).weight ≤ c.weight + if late = none then c.net else 0 := by
  have hs := h.settled ht
  have hn := c.net_nonneg
  cases hc : c.late with
  | some l =>
    have he : (c.settled late).weight = c.weight := by
      have hp := h.posted (by rw [hc]; rfl)
      simp [InvoiceCharge.settled, InvoiceCharge.weight, InvoiceCharge.credited, InvoiceCharge.givingBack,
        InvoiceCharge.net, hc, hp]
    rw [he]
    split
    · omega
    · omega
  | none =>
    have hw := InvoiceCharge.Sound.weight_nonneg hc
    cases late with
    | none =>
      have hle : (c.settled none).weight ≤ c.net := hs.weight_le
      rw [if_pos rfl]
      omega
    | some l =>
      have hle := hs.weight_late (by simp [InvoiceCharge.settled, hc])
      rw [if_neg (by simp)]
      omega

end

/-! ## The rows -/

def InvoiceCharge.terms (c : InvoiceCharge) : Id × Int × Int := (c.id, c.amountCents, c.tipCents)

theorem InvoiceCharge.net_of_terms {c q : InvoiceCharge} (h : q.terms = c.terms) : q.net = c.net := by
  simp only [terms, Prod.mk.injEq] at h
  rw [net, net, h.2.1, h.2.2]

/-- The charge as it was read is still a row. -/
def IssuedInvoice.RowOf (s : IssuedInvoice) (c : InvoiceCharge) : Prop :=
  c.id ∈ s.charges.map (·.id) ∧ ∀ q ∈ s.charges, q.id = c.id → q.terms = c.terms

/-- Rows are added, and never removed or given other terms. -/
structure RowsKept (s s' : IssuedInvoice) : Prop where
  ids : ∀ id ∈ s.charges.map (·.id), id ∈ s'.charges.map (·.id)
  terms : ∀ q ∈ s'.charges, q.terms ∈ s.charges.map (·.terms) ∨ q.id ∉ s.charges.map (·.id)

theorem RowsKept.of_terms {s s' : IssuedInvoice} (h : s'.charges.map (·.terms) = s.charges.map (·.terms)) :
    RowsKept s s' where
  ids id hid := by
    have hids := congrArg (List.map Prod.fst) h
    simp only [List.map_map, Function.comp_def, InvoiceCharge.terms] at hids
    rw [hids]
    exact hid
  terms q hq := .inl (h ▸ List.mem_map_of_mem hq)

theorem RowsKept.append {s s' : IssuedInvoice} {c : InvoiceCharge}
    (h : ∃ cs, s'.charges = cs ++ [c] ∧ cs.map (·.terms) = s.charges.map (·.terms)) (hid : c.id ∉ s.charges.map (·.id)) :
    RowsKept s s' := by
  obtain ⟨cs, hcs, hterms⟩ := h
  have hids : cs.map (·.id) = s.charges.map (·.id) := by
    have h := congrArg (List.map Prod.fst) hterms
    simpa only [List.map_map, Function.comp_def, InvoiceCharge.terms] using h
  refine ⟨fun id hmem => ?_, fun q hq => ?_⟩
  · rw [hcs, List.map_append, hids]
    exact List.mem_append_left _ hmem
  · rw [hcs] at hq
    rcases List.mem_append.1 hq with hq | hq
    · exact .inl (hterms ▸ List.mem_map_of_mem hq)
    · rw [List.mem_singleton.1 hq]
      exact .inr hid

theorem IssuedInvoice.RowOf.kept {s s' : IssuedInvoice} {c : InvoiceCharge} (h : s.RowOf c) (hk : RowsKept s s') :
    s'.RowOf c := by
  refine ⟨hk.ids _ h.1, fun q hq hid => ?_⟩
  rcases hk.terms q hq with ht | hn
  · obtain ⟨r, hr, he⟩ := List.mem_map.1 ht
    have hrid : r.id = c.id := (congrArg Prod.fst he).trans hid
    exact he.symm.trans (h.2 r hr hrid)
  · rw [hid] at hn
    exact absurd h.1 hn

/-- What holds of the invoice between any two steps. -/
structure InvoiceSound (s : IssuedInvoice) : Prop where
  ids : (s.charges.map (·.id)).Nodup
  charges : ∀ c ∈ s.charges, c.Sound
  applications : ∀ a ∈ s.applications, 0 ≤ a.cents
  slack : 0 ≤ s.slack

theorem InvoiceSound.rowOf {s : IssuedInvoice} (h : InvoiceSound s) {c : InvoiceCharge} (hc : c ∈ s.charges) :
    s.RowOf c := by
  refine ⟨List.mem_map_of_mem hc, fun q hq hid => ?_⟩
  rw [List.inj_on_of_nodup_map h.ids hq hc hid]

/-- Changing the row of one charge changes a sum over the rows by what it changes there. -/
theorem sum_update_le {cs : List InvoiceCharge} (hn : (cs.map (·.id)).Nodup) {f : InvoiceCharge → InvoiceCharge}
    {id : Id} {d : Int} (hd : 0 ≤ d) (h : ∀ q ∈ cs, q.id = id → (f q).weight ≤ q.weight + d) :
    ((cs.map fun q => if q.id = id then f q else q).map (·.weight)).sum ≤ (cs.map (·.weight)).sum + d := by
  induction cs with
  | nil => simpa using hd
  | cons c cs ih =>
    obtain ⟨hc, hn⟩ := List.nodup_cons.1 hn
    simp only [List.map_cons, List.sum_cons]
    by_cases hid : c.id = id
    · -- no other row has the id
      have hrest : (cs.map fun q => if q.id = id then f q else q) = cs := by
        refine (List.map_congr_left fun q hq => ?_).trans (List.map_id cs)
        rw [if_neg fun he => hc (List.mem_map.2 ⟨q, hq, he.trans hid.symm⟩)]
        rfl
      have hle := h c List.mem_cons_self hid
      rw [if_pos hid, hrest]
      omega
    · have hle := ih hn fun q hq => h q (List.mem_cons_of_mem c hq)
      rw [if_neg hid]
      omega

theorem sum_weight_congr {cs : List InvoiceCharge} {f : InvoiceCharge → InvoiceCharge}
    (h : ∀ q ∈ cs, (f q).weight = q.weight) : ((cs.map f).map (·.weight)).sum = (cs.map (·.weight)).sum := by
  rw [List.map_map]
  exact congrArg List.sum (List.map_congr_left h)

/-! ## Taking from the balance -/

/-- The changes that take something off what the invoice owes. -/
def InvoiceChange.takes : InvoiceChange → Bool
  | .pay _ | .settle _ _ none | .apply _ | .void _ => true
  | _ => false

/-- What the applications that a void found still take off. -/
def IssuedInvoice.appliedIn (s : IssuedInvoice) (found : List ApplicationRef) : Int :=
  ((s.applications.filter fun a => decide (a.ref ∈ found)).map (·.stands)).sum

/-- A change is ready to be written: what it takes is left. -/
def InvoiceChange.Ready (s : IssuedInvoice) : InvoiceChange → Prop
  | .pay c => c.Sound ∧ c.weight ≤ s.slack
  | .open c _ => c.Sound ∧ c.weight ≤ 0
  | .settle isNew c late => c.Sound ∧ (isNew = true → c.weight ≤ 0) ∧ (isNew = false → s.RowOf c) ∧
      (∀ tip, late = some (.booked tip) → tip ≤ c.tipCents) ∧ (late = none → c.net ≤ s.slack)
  | .apply a => 0 ≤ a.cents ∧ a.stands ≤ s.slack
  | .void found => s.face ≤ s.slack + s.appliedIn found

theorem IssuedInvoice.applied_unapply (s : IssuedInvoice) (found : List ApplicationRef) :
    (s.unapply found).applied = s.applied - s.appliedIn found := by
  unfold applied appliedIn unapply
  induction s.applications with
  | nil => rfl
  | cons a as ih =>
    by_cases h : a.ref ∈ found
    · simp only [List.map_cons, List.sum_cons, if_pos h, List.filter_cons, decide_eq_true h, if_true] at ih ⊢
      rw [ih, show DepositApplication.stands { a with reversed := true } = 0 from rfl]
      omega
    · simp only [List.map_cons, List.sum_cons, if_neg h, List.filter_cons, decide_eq_false h] at ih ⊢
      rw [ih]
      simp only [Bool.false_eq_true, if_false]
      omega

theorem DepositApplication.stands_nonneg {a : DepositApplication} (h : 0 ≤ a.cents) : 0 ≤ a.stands := by
  unfold stands
  split
  · exact le_refl 0
  · exact h

theorem IssuedInvoice.appliedIn_nonneg {s : IssuedInvoice} (h : ∀ a ∈ s.applications, 0 ≤ a.cents)
    (found : List ApplicationRef) : 0 ≤ s.appliedIn found := by
  refine List.sum_nonneg fun x hx => ?_
  obtain ⟨a, ha, rfl⟩ := List.mem_map.1 hx
  exact DepositApplication.stands_nonneg (h a (List.mem_of_mem_filter ha))

/-- What one transaction takes back another finds no more. -/
theorem IssuedInvoice.appliedIn_unapply {s : IssuedInvoice} (h : ∀ a ∈ s.applications, 0 ≤ a.cents)
    (refs found : List ApplicationRef) : s.appliedIn found ≤ (s.unapply refs).appliedIn found + s.appliedIn refs := by
  unfold appliedIn unapply
  induction hs : s.applications generalizing s with
  | nil => exact le_refl 0
  | cons a as ih =>
    have ha := DepositApplication.stands_nonneg (h a (by rw [hs]; exact List.mem_cons_self))
    have hrest := ih (s := { s with applications := as })
      (fun b hb => h b (by rw [hs]; exact List.mem_cons_of_mem a hb)) rfl
    have hgone : DepositApplication.stands { a with reversed := true } = 0 := rfl
    by_cases hr : a.ref ∈ refs
    · by_cases hf : a.ref ∈ found
      · simp only [List.map_cons, List.filter_cons, hr, hf, decide_true, if_true, List.sum_cons, hgone] at hrest ⊢
        omega
      · simp only [List.map_cons, List.filter_cons, hr, hf, decide_true, decide_false, if_true, List.sum_cons,
          Bool.false_eq_true, if_false] at hrest ⊢
        omega
    · by_cases hf : a.ref ∈ found
      · simp only [List.map_cons, List.filter_cons, hr, hf, decide_true, decide_false, if_true, List.sum_cons,
          Bool.false_eq_true, if_false] at hrest ⊢
        omega
      · simp only [List.map_cons, List.filter_cons, hr, hf, decide_false, Bool.false_eq_true, if_false] at hrest ⊢
        exact hrest

/-- A step that takes nothing off the invoice. -/
structure TakesNothing (s s' : IssuedInvoice) : Prop where
  slack : s.slack ≤ s'.slack
  found : ∀ found, s.slack + s.appliedIn found - s.face ≤ s'.slack + s'.appliedIn found - s'.face

theorem TakesNothing.of_weight {s s' : IssuedInvoice}
    (hw : (s'.charges.map (·.weight)).sum ≤ (s.charges.map (·.weight)).sum)
    (ha : s'.applications = s.applications) (hf : s'.face = s.face) : TakesNothing s s' := by
  have happ : s'.applied = s.applied := by rw [IssuedInvoice.applied, ha, IssuedInvoice.applied]
  have hslack : s.slack ≤ s'.slack := by
    rw [IssuedInvoice.slack_eq, IssuedInvoice.slack_eq, happ, hf]
    omega
  refine ⟨hslack, fun found => ?_⟩
  have hin : s'.appliedIn found = s.appliedIn found := by rw [IssuedInvoice.appliedIn, ha, IssuedInvoice.appliedIn]
  omega

theorem TakesNothing.unapply {s : IssuedInvoice} (h : ∀ a ∈ s.applications, 0 ≤ a.cents) (refs : List ApplicationRef) :
    TakesNothing s (s.unapply refs) := by
  have hslack : (s.unapply refs).slack = s.slack + s.appliedIn refs := by
    rw [IssuedInvoice.slack_eq, IssuedInvoice.slack_eq, IssuedInvoice.applied_unapply]
    show s.face - (s.charges.map (·.weight)).sum - (s.applied - s.appliedIn refs) = _
    omega
  have hface : (s.unapply refs).face = s.face := rfl
  have hback := s.appliedIn_nonneg h refs
  refine ⟨by omega, fun found => ?_⟩
  have hle := s.appliedIn_unapply h refs found
  omega

/-- A change that takes nothing stays ready, and so does one that takes something while nothing else is taken. -/
theorem InvoiceChange.Ready.kept {s s' : IssuedInvoice} {change : InvoiceChange} (h : change.Ready s)
    (hk : RowsKept s s') (ht : change.takes = true → TakesNothing s s') : change.Ready s' := by
  cases change with
  | pay c => exact ⟨h.1, h.2.trans (ht rfl).slack⟩
  | «open» c superseded => exact h
  | settle isNew c late =>
    obtain ⟨hs, hnew, hrow, htip, hnet⟩ := h
    refine ⟨hs, hnew, fun hn => (hrow hn).kept hk, htip, fun hl => ?_⟩
    subst hl
    exact (hnet rfl).trans (ht rfl).slack
  | apply a => exact ⟨h.1, h.2.trans (ht rfl).slack⟩
  | void found =>
    have hf := (ht rfl).found found
    have h : s.face ≤ s.slack + s.appliedIn found := h
    show s'.face ≤ s'.slack + s'.appliedIn found
    omega

/-! ## Writing a change -/

theorem slack_append {s s' : IssuedInvoice} {c : InvoiceCharge} {cs : List InvoiceCharge}
    (hc : s'.charges = cs ++ [c]) (hw : (cs.map (·.weight)).sum = (s.charges.map (·.weight)).sum)
    (ha : s'.applications = s.applications) (hf : s'.face = s.face) : s'.slack = s.slack - c.weight := by
  have happ : s'.applied = s.applied := by rw [IssuedInvoice.applied, ha, IssuedInvoice.applied]
  rw [IssuedInvoice.slack_eq, IssuedInvoice.slack_eq, happ, hf, hc, List.map_append, List.sum_append, hw]
  simp only [List.map_cons, List.map_nil, List.sum_cons, List.sum_nil]
  omega

theorem InvoiceSound.append {s s' : IssuedInvoice} {c : InvoiceCharge} {cs : List InvoiceCharge} (h : InvoiceSound s)
    (hc : s'.charges = cs ++ [c]) (hids : cs.map (·.id) = s.charges.map (·.id)) (hcs : ∀ q ∈ cs, q.Sound)
    (hsound : c.Sound) (hid : c.id ∉ s.charges.map (·.id)) (ha : s'.applications = s.applications)
    (hslack : 0 ≤ s'.slack) : InvoiceSound s' where
  ids := by
    rw [hc, List.map_append, hids]
    refine List.nodup_append.2 ⟨h.ids, List.nodup_singleton _, fun x hx y hy he => ?_⟩
    rw [he, List.mem_singleton.1 hy] at hx
    exact hid hx
  charges q hq := by
    rw [hc] at hq
    rcases List.mem_append.1 hq with hq | hq
    · exact hcs q hq
    · rw [List.mem_singleton.1 hq]
      exact hsound
  applications := by
    rw [ha]
    exact h.applications
  slack := hslack

/-- A row of one charge is changed, which keeps its terms. -/
theorem InvoiceSound.update {s s' : IssuedInvoice} {f : InvoiceCharge → InvoiceCharge} (h : InvoiceSound s)
    (hc : s'.charges = s.charges.map f) (hterms : ∀ q ∈ s.charges, (f q).terms = q.terms)
    (hsound : ∀ q ∈ s.charges, (f q).Sound) (ha : s'.applications = s.applications) (hslack : 0 ≤ s'.slack) :
    InvoiceSound s' ∧ RowsKept s s' := by
  have hmap : s'.charges.map (·.terms) = s.charges.map (·.terms) := by
    rw [hc, List.map_map]
    exact List.map_congr_left hterms
  refine ⟨⟨?_, fun q hq => ?_, ?_, hslack⟩, .of_terms hmap⟩
  · have hids := congrArg (List.map Prod.fst) hmap
    simp only [List.map_map, Function.comp_def, InvoiceCharge.terms] at hids
    rw [hids]
    exact h.ids
  · rw [hc] at hq
    obtain ⟨r, hr, rfl⟩ := List.mem_map.1 hq
    exact hsound r hr
  · rw [ha]
    exact h.applications

theorem InvoiceCharge.Sound.status {c : InvoiceCharge} (h : c.Sound) (status : PaymentStatus) :
    InvoiceCharge.Sound { c with status := status } := ⟨h.posted, h.tip⟩

section
variable {s : IssuedInvoice} (h : InvoiceSound s)
include h

theorem cancelAttempts_rows (ids : List Id) :
    (s.cancelAttempts ids).charges.map (·.terms) = s.charges.map (·.terms) ∧
      ((s.cancelAttempts ids).charges.map (·.weight)).sum = (s.charges.map (·.weight)).sum ∧
      ∀ q ∈ (s.cancelAttempts ids).charges, q.Sound := by
  unfold IssuedInvoice.cancelAttempts
  refine ⟨?_, sum_weight_congr fun q _ => ?_, fun q hq => ?_⟩
  · rw [List.map_map]
    refine List.map_congr_left fun q _ => ?_
    show (if q.id ∈ ids then { q with status := .canceled } else q : InvoiceCharge).terms = q.terms
    split
    · rfl
    · rfl
  · split
    · rfl
    · rfl
  · obtain ⟨r, hr, rfl⟩ := List.mem_map.1 hq
    split
    · exact (h.charges r hr).status .canceled
    · exact h.charges r hr

/-- What a commit of a ready change leaves. -/
structure Wrote (s s' : IssuedInvoice) (change : InvoiceChange) : Prop where
  sound : InvoiceSound s'
  rows : RowsKept s s'
  nothing : change.takes = false → TakesNothing s s'

omit h in
theorem ids_of_terms {cs cs' : List InvoiceCharge} (h : cs.map (·.terms) = cs'.map (·.terms)) :
    cs.map (·.id) = cs'.map (·.id) := by
  have hids := congrArg (List.map Prod.fst) h
  simpa only [List.map_map, Function.comp_def, InvoiceCharge.terms] using hids

theorem wrote_pay {c : InvoiceCharge} (hr : InvoiceChange.Ready s (.pay c)) (hw : InvoiceChange.Writable s (.pay c)) :
    Wrote s (InvoiceChange.write s (.pay c)) (.pay c) := by
  have hs : (InvoiceChange.write s (.pay c)).slack = s.slack - c.weight := slack_append rfl rfl rfl rfl
  have hle := hr.2
  refine ⟨h.append rfl rfl h.charges hr.1 hw rfl ?_, .append ⟨s.charges, rfl, rfl⟩ hw, fun hf => by cases hf⟩
  rw [hs]
  omega

theorem wrote_open {c : InvoiceCharge} {superseded : List Id} (hr : InvoiceChange.Ready s (.open c superseded))
    (hw : InvoiceChange.Writable s (.open c superseded)) :
    Wrote s (InvoiceChange.write s (.open c superseded)) (.open c superseded) := by
  obtain ⟨hterms, hsum, hall⟩ := cancelAttempts_rows h superseded
  have hs : (InvoiceChange.write s (.open c superseded)).slack = s.slack - c.weight := slack_append rfl hsum rfl rfl
  have hslack := h.slack
  have hle : c.weight ≤ 0 := hr.2
  refine ⟨h.append rfl (ids_of_terms hterms) hall hr.1 hw rfl ?_, .append ⟨_, rfl, hterms⟩ hw, fun _ => ?_⟩
  · rw [hs]
    omega
  · refine .of_weight ?_ rfl rfl
    show (((s.cancelAttempts superseded).charges ++ [c]).map (·.weight)).sum ≤ _
    rw [List.map_append, List.sum_append, hsum]
    simp only [List.map_cons, List.map_nil, List.sum_cons, List.sum_nil]
    omega

theorem wrote_settle_new {c : InvoiceCharge} {late : Option LateRefund}
    (hr : InvoiceChange.Ready s (.settle true c late)) (hw : InvoiceChange.Writable s (.settle true c late)) :
    Wrote s (InvoiceChange.write s (.settle true c late)) (.settle true c late) := by
  obtain ⟨hsound, hnew, -, htip, hnet⟩ := hr
  have hs : (InvoiceChange.write s (.settle true c late)).slack = s.slack - (c.settled late).weight :=
    slack_append rfl rfl rfl rfl
  have hweight := hsound.weight_settled htip
  have hle := hnew rfl
  have hslack := h.slack
  have htakes : (c.settled late).weight ≤ if late = none then s.slack else 0 := by
    split at hweight
    · next hl =>
      have hn := hnet hl
      rw [if_pos hl]
      omega
    · next hl =>
      rw [if_neg hl]
      omega
  refine ⟨h.append rfl rfl h.charges (hsound.settled htip) hw rfl ?_, .append ⟨s.charges, rfl, rfl⟩ hw, fun hf => ?_⟩
  · rw [hs]
    split at htakes
    · omega
    · omega
  · cases late with
    | none => cases hf
    | some l =>
      refine .of_weight ?_ rfl rfl
      show ((s.charges ++ [c.settled (some l)]).map (·.weight)).sum ≤ _
      simp only [reduceCtorEq, if_false] at htakes
      rw [List.map_append, List.sum_append]
      simp only [List.map_cons, List.map_nil, List.sum_cons, List.sum_nil]
      omega

theorem wrote_settle_row {c : InvoiceCharge} {late : Option LateRefund}
    (hr : InvoiceChange.Ready s (.settle false c late)) :
    Wrote s (InvoiceChange.write s (.settle false c late)) (.settle false c late) := by
  obtain ⟨-, -, hrow, htip, hnet⟩ := hr
  have hterms := (hrow rfl).2
  have hrowtip : ∀ q ∈ s.charges, q.id = c.id → ∀ tip, late = some (.booked tip) → tip ≤ q.tipCents := by
    intro q hq hid tip ht
    have he := hterms q hq hid
    simp only [InvoiceCharge.terms, Prod.mk.injEq] at he
    rw [he.2.2]
    exact htip tip ht
  have hsum : ((s.charges.map fun q => if q.id = c.id then q.settled late else q).map (·.weight)).sum ≤
      (s.charges.map (·.weight)).sum + if late = none then c.net else 0 := by
    refine sum_update_le h.ids ?_ fun q hq hid => ?_
    · have := c.net_nonneg
      split
      · exact this
      · exact le_refl 0
    · rw [← InvoiceCharge.net_of_terms (hterms q hq hid)]
      exact (h.charges q hq).weight_settled (hrowtip q hq hid)
  have hslack := h.slack
  have hs := (InvoiceChange.write s (.settle false c late)).slack_eq
  have hs0 := s.slack_eq
  have happ : (InvoiceChange.write s (.settle false c late)).applied = s.applied := rfl
  have hface : (InvoiceChange.write s (.settle false c late)).face = s.face := rfl
  have hcharges : (InvoiceChange.write s (.settle false c late)).charges =
      s.charges.map fun q => if q.id = c.id then q.settled late else q := rfl
  rw [hcharges, happ, hface] at hs
  have hleft : 0 ≤ (InvoiceChange.write s (.settle false c late)).slack := by
    split at hsum
    · next hl =>
      have hn := hnet hl
      omega
    · omega
  obtain ⟨hsound, hkept⟩ := h.update hcharges (fun q _ => by split <;> rfl)
    (fun q hq => by
      split
      · next hid => exact (h.charges q hq).settled (hrowtip q hq hid)
      · exact h.charges q hq) rfl hleft
  refine ⟨hsound, hkept, fun hf => ?_⟩
  cases late with
  | none => cases hf
  | some l =>
    refine .of_weight ?_ rfl rfl
    rw [hcharges]
    simpa using hsum

theorem wrote_apply {a : DepositApplication} (hr : InvoiceChange.Ready s (.apply a)) :
    Wrote s (InvoiceChange.write s (.apply a)) (.apply a) := by
  have hs := (InvoiceChange.write s (.apply a)).slack_eq
  have hs0 := s.slack_eq
  have happ : (InvoiceChange.write s (.apply a)).applied = s.applied + a.stands := by
    show ((s.applications ++ [a]).map (·.stands)).sum = _
    rw [List.map_append, List.sum_append]
    simp [IssuedInvoice.applied]
  obtain ⟨ha, hle⟩ := hr
  have hface : (InvoiceChange.write s (.apply a)).face = s.face := rfl
  have hcharges : (InvoiceChange.write s (.apply a)).charges = s.charges := rfl
  rw [happ, hface, hcharges] at hs
  refine ⟨⟨h.ids, h.charges, fun b hb => ?_, by omega⟩, .of_terms rfl, fun hf => by cases hf⟩
  rcases List.mem_append.1 hb with hb | hb
  · exact h.applications b hb
  · rw [List.mem_singleton.1 hb]
    exact ha

theorem wrote_void {found : List ApplicationRef} (hr : InvoiceChange.Ready s (.void found)) :
    Wrote s (InvoiceChange.write s (.void found)) (.void found) := by
  have hs := (InvoiceChange.write s (.void found)).slack_eq
  have hs0 := s.slack_eq
  have happ : (InvoiceChange.write s (.void found)).applied = s.applied - s.appliedIn found := s.applied_unapply found
  have hface : (InvoiceChange.write s (.void found)).face = 0 := rfl
  have hcharges : (InvoiceChange.write s (.void found)).charges = s.charges := rfl
  have hle : s.face ≤ s.slack + s.appliedIn found := hr
  rw [happ, hface, hcharges] at hs
  refine ⟨⟨h.ids, h.charges, fun b hb => ?_, by omega⟩, .of_terms rfl, fun hf => by cases hf⟩
  obtain ⟨a, ha, rfl⟩ := List.mem_map.1 hb
  have hn := h.applications a ha
  split
  · exact hn
  · exact hn

theorem InvoiceChange.Ready.wrote {change : InvoiceChange} (hr : change.Ready s) (hw : change.Writable s) :
    Wrote s (change.write s) change := by
  cases change with
  | pay c => exact wrote_pay h hr hw
  | «open» c superseded => exact wrote_open h hr hw
  | settle isNew c late =>
    cases isNew with
    | true => exact wrote_settle_new h hr hw
    | false => exact wrote_settle_row h hr
  | apply a => exact wrote_apply h hr
  | void found => exact wrote_void h hr

end

/-! ## What a transaction reads -/

theorem IssuedInvoice.assertRoom_ok {s : IssuedInvoice} {amount : Int} (h : s.assertRoom amount = .ok ()) :
    amount ≤ s.receivable := by
  unfold assertRoom at h
  split at h
  · cases h
  · split at h
    · cases h
    · split at h
      · cases h
      · next hle => exact Int.not_lt.1 hle

theorem IssuedInvoice.net_le_of_not_late {s : IssuedInvoice} {c : InvoiceCharge} (h : s.isLate c = false) :
    c.net ≤ s.receivable := by
  simp only [isLate, Bool.or_eq_false_iff, decide_eq_false_iff_not] at h
  exact Int.not_lt.1 h.2

theorem IssuedInvoice.assertVoidable_ok {s : IssuedInvoice} (h : s.assertVoidable = .ok ()) : s.collected = 0 := by
  unfold assertVoidable at h
  split at h
  · cases h
  · split at h
    · cases h
    · next hc => exact not_not.1 hc

theorem IssuedInvoice.enrolmentVoidable_collected {s : IssuedInvoice} (h : s.enrolmentVoidable = true) :
    s.collected = 0 := by
  simp only [enrolmentVoidable, Bool.and_eq_true, decide_eq_true_eq] at h
  exact h.1.2

theorem InvoiceCharge.Sound.cash_nonneg {c : InvoiceCharge} (h : c.Sound) : 0 ≤ c.cash := by
  have ha := c.tip_nonneg.trans c.tip_le
  cases hl : c.late with
  | none =>
    simp only [cash, hl]
    split
    · omega
    · omega
  | some late =>
    have hp := h.posted (by rw [hl]; rfl)
    cases late with
    | pending => simpa [cash, hl, hp] using ha
    | booked tip => simp [cash, hl, hp]

/-- A payment that left no cash weighs nothing on the invoice. -/
theorem InvoiceCharge.Sound.weight_of_cash {c : InvoiceCharge} (h : c.Sound) (hc : c.cash = 0) : c.weight ≤ 0 := by
  cases hl : c.late with
  | some late => exact h.weight_late (by rw [hl]; rfl)
  | none =>
    rw [InvoiceCharge.weight_of_none hl]
    simp only [cash, hl, Int.sub_zero] at hc
    have ht := c.tip_nonneg
    split
    · next hp =>
      rw [if_pos hp] at hc
      unfold net
      omega
    · exact le_refl 0

theorem eq_zero_of_sum {cs : List InvoiceCharge} (h : ∀ c ∈ cs, 0 ≤ c.cash) (hs : (cs.map (·.cash)).sum = 0) :
    ∀ c ∈ cs, c.cash = 0 := by
  induction cs with
  | nil =>
    intro c hc
    cases hc
  | cons c cs ih =>
    have h0 := h c List.mem_cons_self
    have hrest := fun q hq => h q (List.mem_cons_of_mem c hq)
    have hsum : 0 ≤ (cs.map (·.cash)).sum := by
      refine List.sum_nonneg fun x hx => ?_
      obtain ⟨q, hq, rfl⟩ := List.mem_map.1 hx
      exact hrest q hq
    simp only [List.map_cons, List.sum_cons] at hs
    intro q hq
    rcases List.mem_cons.1 hq with rfl | hq
    · omega
    · exact ih hrest (by omega) q hq

/-- A void finds every application that stands. -/
theorem IssuedInvoice.appliedIn_standing (s : IssuedInvoice) : s.appliedIn s.standing = s.applied := by
  have hin : ∀ (as : List DepositApplication) (refs : List ApplicationRef),
      (∀ a ∈ as, a.reversed = false → a.ref ∈ refs) →
        ((as.filter fun a => decide (a.ref ∈ refs)).map (·.stands)).sum = (as.map (·.stands)).sum := by
    intro as refs hrefs
    induction as with
    | nil => rfl
    | cons a as ih =>
      have hrest := ih fun b hb => hrefs b (List.mem_cons_of_mem a hb)
      by_cases hr : a.ref ∈ refs
      · simp only [List.filter_cons, hr, decide_true, if_true, List.map_cons, List.sum_cons, hrest]
      · have hrev : a.reversed = true := by
          by_contra hf
          exact hr (hrefs a List.mem_cons_self (by simpa using hf))
        have hgone : a.stands = 0 := if_pos hrev
        simp only [List.filter_cons, hr, decide_false, Bool.false_eq_true, if_false, List.map_cons, List.sum_cons, hrest,
          hgone, Int.zero_add]
  refine hin s.applications s.standing fun a ha hrev => ?_
  exact List.mem_map.2 ⟨a, List.mem_filter.2 ⟨ha, by simp [hrev]⟩, rfl⟩

/-- An invoice that no cash and no refund is on can be voided: what it still takes off was found. -/
theorem ready_void {s : IssuedInvoice} (h : InvoiceSound s) (hc : s.collected = 0)
    (hr : ∀ r ∈ s.refunds, r.status ≠ .succeeded) : InvoiceChange.Ready s (.void s.standing) := by
  have hrefunds : (s.refunds.map (·.cash)).sum = 0 := by
    refine List.sum_eq_zero fun x hx => ?_
    obtain ⟨r, hmem, rfl⟩ := List.mem_map.1 hx
    exact if_neg (hr r hmem)
  have hcash : (s.charges.map (·.cash)).sum = 0 := by
    unfold IssuedInvoice.collected at hc
    omega
  have hzero := eq_zero_of_sum (fun c hmem => (h.charges c hmem).cash_nonneg) hcash
  have hweight : (s.charges.map (·.weight)).sum ≤ 0 := by
    have hle : (s.charges.map (·.weight)).sum ≤ (s.charges.map fun _ => (0 : Int)).sum :=
      List.sum_le_sum fun c hmem => (h.charges c hmem).weight_of_cash (hzero c hmem)
    simpa using hle
  have hs := s.slack_eq
  have hin := s.appliedIn_standing
  show s.face ≤ s.slack + s.appliedIn s.standing
  omega

theorem pendingCharge_sound (id : Id) (net tip : Nat) : (pendingCharge id net tip).Sound :=
  ⟨(fun hl => by cases hl), (fun tip hl => by cases hl)⟩

theorem manualCharge_sound (id : Id) (amount : Nat) : (manualCharge id amount).Sound :=
  ⟨(fun hl => by cases hl), (fun tip hl => by cases hl)⟩

/-! ## Transactions -/

variable {π : Type} [DecidableEq π]

/-- What a transaction knows at its place. -/
def HoldsInvoice (p : π) (s : InvoiceStore π) : InvoicePlace → Prop
  | .settling isNew c => c.Sound ∧ (isNew = true → c.weight ≤ 0) ∧ (isNew = false → s.invoice.RowOf c)
  | .writing locked change => (locked = true → s.lock = some p) ∧ change.Ready s.invoice
  | _ => True

/-- A transaction commits a change that takes something off the invoice. -/
def Takes (x x' : InvoicePlace) : Prop :=
  x' = .idle ∧ ∃ locked change, x = .writing locked change ∧ change.takes = true

/-- What one step leaves to all. -/
structure KeepsInvoice (p : π) (s : InvoiceStore π) (x : InvoicePlace) (s' : InvoiceStore π) (x' : InvoicePlace) : Prop where
  sound : InvoiceSound s'.invoice
  own : HoldsInvoice p s' x'
  rows : RowsKept s.invoice s'.invoice
  locks : ∀ {q}, q ≠ p → s.lock = some q → s'.lock = some q
  nothing : ¬Takes x x' → TakesNothing s.invoice s'.invoice

theorem RowsKept.refl (s : IssuedInvoice) : RowsKept s s := .of_terms rfl

theorem TakesNothing.refl (s : IssuedInvoice) : TakesNothing s s := ⟨le_refl _, fun _ => le_refl _⟩

section
variable {p : π} {s s' : InvoiceStore π} {x x' : InvoicePlace}

omit [DecidableEq π] in
/-- A step that only reads, and may take the free lock. -/
theorem KeepsInvoice.read (h : InvoiceSound s.invoice) (hi : s'.invoice = s.invoice) (ho : HoldsInvoice p s' x')
    (hl : ∀ {q}, q ≠ p → s.lock = some q → s'.lock = some q) : KeepsInvoice p s x s' x' := by
  refine ⟨hi ▸ h, ho, ?_, hl, fun _ => ?_⟩
  · rw [hi]
    exact .refl _
  · rw [hi]
    exact .refl _

omit [DecidableEq π] in
theorem lock_free {q : π} {r : Option π} (hl : s.lock = none) (hq : s.lock = some q) : r = some q := by
  rw [hl] at hq
  cases hq

theorem InvoiceStore.release_other {q : π} (hq : q ≠ p) (hl : s.lock = some q) : s.release p = some q := by
  unfold release
  rw [hl, if_neg fun h => hq (Option.some.inj h)]

omit [DecidableEq π] in
/-- A step that moves refunds takes nothing. -/
theorem KeepsInvoice.refunds (h : InvoiceSound s.invoice) (refunds : List GivenRefund) :
    KeepsInvoice p s x { s with invoice := { s.invoice with refunds := refunds } } .idle where
  sound := ⟨h.ids, h.charges, h.applications, h.slack⟩
  own := trivial
  rows := .of_terms rfl
  locks _ hl := hl
  nothing _ := .of_weight (le_refl _) rfl rfl

omit [DecidableEq π] in
/-- A step that changes one row's status or late refund and makes it weigh no more. -/
theorem KeepsInvoice.row (h : InvoiceSound s.invoice) (id : Id) (f : InvoiceCharge → InvoiceCharge)
    (hf : ∀ q ∈ s.invoice.charges, q.id = id → (f q).terms = q.terms ∧ (f q).Sound ∧ (f q).weight ≤ q.weight) :
    KeepsInvoice p s x
      { s with invoice := { s.invoice with charges := s.invoice.charges.map fun q => if q.id = id then f q else q } } .idle := by
  have hsum : ((s.invoice.charges.map fun q => if q.id = id then f q else q).map (·.weight)).sum ≤
      (s.invoice.charges.map (·.weight)).sum := by
    have hrow : ∀ q ∈ s.invoice.charges, q.id = id → (f q).weight ≤ q.weight + 0 := by
      intro q hq hid
      rw [Int.add_zero]
      exact (hf q hq hid).2.2
    have hle := sum_update_le h.ids (le_refl 0) hrow
    rwa [Int.add_zero] at hle
  let after : IssuedInvoice :=
    { s.invoice with charges := s.invoice.charges.map fun q => if q.id = id then f q else q }
  have htakes : TakesNothing s.invoice after := .of_weight hsum rfl rfl
  have hcharges : after.charges = s.invoice.charges.map fun q => if q.id = id then f q else q := rfl
  obtain ⟨hsound, hkept⟩ := h.update hcharges
    (fun q hq => by
      split
      · next hid => exact (hf q hq hid).1
      · exact rfl)
    (fun q hq => by
      split
      · next hid => exact (hf q hq hid).2.1
      · exact h.charges q hq) rfl (h.slack.trans htakes.slack)
  exact ⟨hsound, trivial, hkept, fun _ hl => hl, fun _ => htakes⟩

/-- What one step keeps; a void reads an invoice that no refund is on. -/
theorem InvoiceStep.keeps (hs : InvoiceStep p s x s' x') (h : InvoiceSound s.invoice) (hx : HoldsInvoice p s x)
    (hvoid : ∀ locked found, x = .idle → x' = .writing locked (.void found) →
      ∀ r ∈ s.invoice.refunds, r.status ≠ .succeeded) : KeepsInvoice p s x s' x' := by
  have hslack := s.invoice.receivable_le_slack
  cases hs with
  | record id amount hl hroom =>
    have hle := IssuedInvoice.assertRoom_ok hroom
    have hw : (manualCharge id amount).weight = amount := by
      rw [InvoiceCharge.weight_of_none rfl]
      simp [manualCharge, InvoiceCharge.net]
    exact .read h rfl ⟨fun _ => rfl, manualCharge_sound id amount, by rw [hw]; exact hle.trans hslack⟩ fun _ hq => lock_free hl hq
  | openCard id net tip closed supersede hl hc hroom =>
    refine .read h rfl ⟨fun _ => rfl, pendingCharge_sound id net tip, ?_⟩ fun _ hq => lock_free hl hq
    rw [InvoiceCharge.weight_of_none rfl]
    exact le_refl 0
  | loadCharge hc =>
    exact .read h rfl ⟨h.charges _ hc, (fun hn => by cases hn), fun _ => h.rowOf hc⟩ fun _ hq => hq
  | newCharge id net tip =>
    refine .read h rfl ⟨pendingCharge_sound id net tip, fun _ => ?_, fun hn => by cases hn⟩ fun _ hq => hq
    rw [InvoiceCharge.weight_of_none rfl]
    exact le_refl 0
  | @settle isNew c hl hst hlate =>
    have hle := IssuedInvoice.net_le_of_not_late hlate
    exact .read h rfl ⟨fun _ => rfl, hx.1, hx.2.1, hx.2.2, (fun tip ht => by cases ht), fun _ => hle.trans hslack⟩
      fun _ hq => lock_free hl hq
  | @settleLate isNew c refund hl hst hlate htip =>
    exact .read h rfl ⟨fun _ => rfl, hx.1, hx.2.1, hx.2.2, (fun tip ht => htip tip (Option.some.inj ht)),
      fun hn => by cases hn⟩ fun _ hq => lock_free hl hq
  | loadPending hc hp hst => exact .read h rfl trivial fun _ hq => hq
  | @fail id status =>
    exact .row h id (fun q => { q with status := status }) fun q hq _ => ⟨rfl, (h.charges q hq).status status, le_refl _⟩
  | findOpen ref hst => exact .read h rfl trivial fun _ hq => hq
  | @readBalance ref held hpos =>
    have hmin := min_le_right held s.invoice.receivable
    refine .read h rfl ⟨(fun hf => by cases hf), hpos.le, ?_⟩ fun _ hq => hq
    show min held s.invoice.receivable ≤ s.invoice.slack
    omega
  | void hl hok =>
    exact .read h rfl ⟨fun _ => rfl, ready_void h (IssuedInvoice.assertVoidable_ok hok) (hvoid _ _ rfl rfl)⟩
      fun _ hq => lock_free hl hq
  | voidEnrolment hok =>
    exact .read h rfl ⟨(fun hf => by cases hf),
      ready_void h (IssuedInvoice.enrolmentVoidable_collected hok) (hvoid _ _ rfl rfl)⟩ fun _ hq => hq
  | @commit locked change hw =>
    have hwrote := InvoiceChange.Ready.wrote h hx.2 hw
    refine ⟨hwrote.sound, trivial, hwrote.rows, fun hq hl => InvoiceStore.release_other hq hl, fun ht => hwrote.nothing ?_⟩
    by_contra hne
    exact ht ⟨rfl, locked, change, rfl, by simpa using hne⟩
  | refundDeposit bookingId =>
    have hnothing := TakesNothing.unapply h.applications
      (s.invoice.standing.filter fun r => decide (r.bookingId = bookingId))
    refine ⟨⟨h.ids, h.charges, fun b hb => ?_, h.slack.trans hnothing.slack⟩, trivial, .of_terms rfl, fun _ hl => hl,
      fun _ => hnothing⟩
    obtain ⟨a, ha, rfl⟩ := List.mem_map.1 hb
    have hn := h.applications a ha
    split
    · exact hn
    · exact hn
  | refund id amount status hc hp => exact .refunds h _
  | refundMoves status hr hst => exact .refunds h _
  | @lateRefundSettles c tip hc hlate htip =>
    refine .row h c.id (fun q => { q with late := some (.booked tip) }) fun q hq hid => ?_
    obtain rfl := List.inj_on_of_nodup_map h.ids hq hc hid
    have hp := (h.charges q hq).posted (by rw [hlate]; rfl)
    have hsound : InvoiceCharge.Sound { q with late := some (.booked tip) } := by
      refine ⟨fun _ => hp, fun t ht => ?_⟩
      cases ht
      exact htip
    refine ⟨rfl, hsound, ?_⟩
    rw [InvoiceCharge.weight_of_pending hlate hp]
    exact hsound.weight_late rfl
  | rollback => exact .read h rfl trivial fun hq hl => InvoiceStore.release_other hq hl

end

/-! ## Overlaps -/

/-- A change that takes something commits while another transaction is about to take something, and not both of
them hold the invoice's lock. -/
def Overlaps (w : World π (InvoiceStore π) InvoicePlace) (p : π) (w' : World π (InvoiceStore π) InvoicePlace) : Prop :=
  w'.place p = .idle ∧ ∃ locked change, w.place p = .writing locked change ∧ change.takes = true ∧
    ∃ q, q ≠ p ∧ ∃ locked' change', w.place q = .writing locked' change' ∧ change'.takes = true ∧
      ¬(locked = true ∧ locked' = true)

/-- An invoice is to be voided while a refund of a payment on it stands. -/
def VoidsGivenBack (w : World π (InvoiceStore π) InvoicePlace) (p : π) (w' : World π (InvoiceStore π) InvoicePlace) :
    Prop :=
  w.place p = .idle ∧ (∃ locked found, w'.place p = .writing locked (.void found)) ∧
    ∃ r ∈ w.store.invoice.refunds, r.status = .succeeded

def AloneStep (w : World π (InvoiceStore π) InvoicePlace) (p : π) (w' : World π (InvoiceStore π) InvoicePlace) : Prop :=
  Interleaved (fun p => InvoiceStep p) w p w' ∧ ¬Overlaps w p w' ∧ ¬VoidsGivenBack w p w'

/-- What a world knows of the invoice. -/
def InvoiceKnown (w : World π (InvoiceStore π) InvoicePlace) : Prop :=
  InvoiceSound w.store.invoice ∧ ∀ p, HoldsInvoice p w.store (w.place p)

omit [DecidableEq π] in
/-- What another transaction knows stays true if nothing was taken, or both hold the lock and so are one. -/
theorem HoldsInvoice.others {p q : π} {s s' : InvoiceStore π} {x x' y : InvoicePlace} (hy : HoldsInvoice q s y)
    (hk : KeepsInvoice p s x s' x') (hx : HoldsInvoice p s x) (hq : q ≠ p)
    (halone : Takes x x' → ∀ locked' change', y = .writing locked' change' → change'.takes = true →
      ∃ change, x = .writing true change ∧ locked' = true) : HoldsInvoice q s' y := by
  cases y with
  | settling isNew c => exact ⟨hy.1, hy.2.1, fun hn => (hy.2.2 hn).kept hk.rows⟩
  | writing locked' change' =>
    obtain ⟨hlock, hready⟩ := hy
    refine ⟨fun hl => hk.locks hq (hlock hl), hready.kept hk.rows fun ht => ?_⟩
    by_cases htakes : Takes x x'
    · obtain ⟨change, rfl, hl'⟩ := halone htakes locked' change' rfl ht
      have hp := hx.1 rfl
      rw [hlock hl'] at hp
      exact absurd (Option.some.inj hp) hq
    · exact hk.nothing htakes
  | idle => trivial
  | failing id status => trivial
  | applying ref => trivial
  | rolledBack => trivial

theorem InvoiceKnown.step {w w' : World π (InvoiceStore π) InvoicePlace} {p : π} (h : InvoiceKnown w)
    (hs : AloneStep w p w') : InvoiceKnown w' := by
  obtain ⟨hs, hover, hgiven⟩ := hs
  obtain ⟨hsound, hknown⟩ := h
  cases hs with
  | @step s' x' hstep =>
    have hown : Function.update w.place p x' p = x' := Function.update_self _ _ _
    have hk := hstep.keeps hsound (hknown p) fun locked found hx hx' r hr hst =>
      hgiven ⟨hx, ⟨locked, found, hown.trans hx'⟩, r, hr, hst⟩
    refine ⟨hk.sound, fun q => ?_⟩
    show HoldsInvoice q s' (Function.update w.place p x' q)
    by_cases hq : q = p
    · subst hq
      rw [hown]
      exact hk.own
    · rw [Function.update_of_ne hq]
      refine (hknown q).others hk (hknown p) hq fun htakes locked' change' hy ht => ?_
      obtain ⟨hidle, locked, change, hx, hc⟩ := htakes
      have hboth : locked = true ∧ locked' = true := by
        by_contra hne
        exact hover ⟨hown.trans hidle, locked, change, hx, hc, q, hq, locked', change', hy, ht, hne⟩
      exact ⟨change, by rw [hx, hboth.1], hboth.2⟩

/-- The invoice was just issued, with what deposits paid of it, and no transaction has started. -/
structure InvoiceStart (w : World π (InvoiceStore π) InvoicePlace) : Prop where
  idle : ∀ p, w.place p = .idle
  sent : w.store.invoice.status = .sent
  charges : w.store.invoice.charges = []
  refunds : w.store.invoice.refunds = []
  applications : ∀ a ∈ w.store.invoice.applications, 0 ≤ a.cents
  owes : 0 ≤ w.store.invoice.receivable

omit [DecidableEq π] in
theorem InvoiceStart.known {w : World π (InvoiceStore π) InvoicePlace} (h : InvoiceStart w) : InvoiceKnown w := by
  refine ⟨⟨?_, fun c hc => ?_, h.applications, h.owes.trans w.store.invoice.receivable_le_slack⟩, fun p => ?_⟩
  · rw [h.charges]
    exact List.nodup_nil
  · rw [h.charges] at hc
    cases hc
  · rw [h.idle p]
    trivial

/-- **No invoice is credited beyond what it owes**, in every run in which what does not hold the invoice's lock
overlaps nothing else that takes from it, and no invoice is voided that a refund was given on. -/
theorem invoice_never_overcredited {w w' : World π (InvoiceStore π) InvoicePlace} {ps : List π}
    (hstart : InvoiceStart w) (hr : Run AloneStep w ps w') :
    0 ≤ w'.store.invoice.receivable + w'.store.invoice.givingBack :=
  (hr.invariant (I := InvoiceKnown) (fun _ _ _ hw hs => hw.step hs) hstart.known).1.slack

/-! ## An invoice of 100.00 -/

def hundredInvoice : IssuedInvoice := ⟨.sent, 10000, false, [], [], []⟩

def invoiceStart : World Bool (InvoiceStore Bool) InvoicePlace := ⟨⟨hundredInvoice, none⟩, fun _ => .idle⟩

theorem invoiceStart_start : InvoiceStart invoiceStart :=
  ⟨fun _ => rfl, rfl, rfl, rfl, (fun a ha => by cases ha), by decide⟩

theorem AloneStep.reads {w w' : World π (InvoiceStore π) InvoicePlace} {p : π}
    (hs : Interleaved (fun p => InvoiceStep p) w p w') (hx : ∀ locked change, w.place p ≠ .writing locked change)
    (hv : ∀ locked found, w'.place p ≠ .writing locked (.void found)) : AloneStep w p w' := by
  refine ⟨hs, fun h => ?_, fun h => ?_⟩
  · obtain ⟨-, locked, change, hp, -⟩ := h
    exact hx locked change hp
  · obtain ⟨-, ⟨locked, found, hp⟩, -⟩ := h
    exact hv locked found hp

theorem AloneStep.commits {w w' : World π (InvoiceStore π) InvoicePlace} {p : π}
    (hs : Interleaved (fun p => InvoiceStep p) w p w') (hx : w.place p ≠ .idle)
    (ho : ∀ q, q ≠ p → ∀ locked change, w.place q ≠ .writing locked change) : AloneStep w p w' := by
  refine ⟨hs, fun h => ?_, fun h => hx h.1⟩
  obtain ⟨-, -, -, -, -, q, hq, locked, change, hw, -⟩ := h
  exact ho q hq locked change hw

/-- It is paid 60.00 by hand, and a deposit of 50.00 pays what is left. -/
theorem hundredInvoice_paid : ∃ w' : World Bool (InvoiceStore Bool) InvoicePlace,
    w'.store.invoice.receivable = 0 ∧ 0 ≤ w'.store.invoice.receivable + w'.store.invoice.givingBack := by
  have hrun : ∃ w', Run AloneStep invoiceStart [true, true, false, false, false] w' ∧ w'.store.invoice.receivable = 0 := by
    refine ⟨_,
      .cons (.reads (.from (p := true) rfl (.record "pay_1" 6000 rfl (by decide))) (by simp [invoiceStart]) (by simp))
      (.cons (.commits (.from rfl (.commit List.not_mem_nil)) (by simp) (by simp [invoiceStart]))
      (.cons (.reads (.from (p := false) rfl (.findOpen ⟨"bkg_1", none⟩ (by decide))) (by simp [invoiceStart]) (by simp))
      (.cons (.reads (.from rfl (.readBalance 5000 (by decide))) (by simp) (by simp))
      (.cons (.commits (.from rfl (.commit List.not_mem_nil)) (by simp) (by simp)) .nil)))), ?_⟩
    decide
  obtain ⟨w', hrun, hzero⟩ := hrun
  exact ⟨w', hzero, invoice_never_overcredited invoiceStart_start hrun⟩

/-- A deposit reads the balance, the invoice is paid by hand, and the deposit is applied to nothing. -/
theorem deposit_over_payment : ¬∀ (ps : List Bool) (w' : World Bool (InvoiceStore Bool) InvoicePlace),
    Run (Interleaved fun p => InvoiceStep p) invoiceStart ps w' →
      0 ≤ w'.store.invoice.receivable + w'.store.invoice.givingBack := by
  intro h
  have hleft := h _ _
    (.cons (.from (p := true) rfl (.findOpen ⟨"bkg_1", none⟩ (by decide)))
    (.cons (.from (p := true) rfl (.readBalance 10000 (by decide)))
    (.cons (.from (p := false) rfl (.record "pay_1" 10000 rfl (by decide)))
    (.cons (.from (p := false) rfl (.commit List.not_mem_nil))
    (.cons (.from (p := true) rfl (.commit List.not_mem_nil)) .nil)))))
  exact absurd hleft (by decide)

/-- Nor does it hold of one transaction after another: half is paid and refunded, and the invoice is voided. -/
theorem refunded_invoice_voided : ∃ (ps : List Unit) (w' : World Unit (InvoiceStore Unit) InvoicePlace),
    Run (Interleaved fun p => InvoiceStep p) ⟨⟨hundredInvoice, none⟩, fun _ => .idle⟩ ps w' ∧
      w'.store.invoice.receivable + w'.store.invoice.givingBack = -5000 := by
  refine ⟨[(), (), (), (), ()], _,
    .cons (.from rfl (.record "pay_1" 5000 rfl (by decide)))
    (.cons (.from rfl (.commit List.not_mem_nil))
    (.cons (.from rfl (@InvoiceStep.refund _ _ _ _ (manualCharge "pay_1" 5000) "rfn_1" 5000 .succeeded List.mem_cons_self rfl))
    (.cons (.from rfl (.void rfl (by decide)))
    (.cons (.from rfl (.commit trivial)) .nil)))), by decide⟩

end ClientBridge
