import ClientBridge.Earnings.EarningRuns

/-!
# What a clawback run leaves

Whatever moves, reversals, refunds and earlier clawback runs came before, after a run on a
document or a package the clawbacks that stand are the refunded share of each earning on it,
the settled ones are as they were, and a second run posts nothing (`clawbacks_track`).
-/

namespace ClientBridge

open Bookkeeping Runs

/-! ## Earnings of a document -/

section
variable {L L' : Ledger}

/-- Nothing is posted while the clawbacks that stand are already the share. -/
theorem clawBackEach_settled {ids : List Nat} {kept booked : Int}
    (h : ∀ n ∈ ids, ∀ e, loadEarning L n = some e →
      e.id = n ∧ standingClawbacks L n = -clawbackDue e kept booked) :
    clawBackEach L ids kept booked = .ok L := by
  induction ids with
  | nil => rfl
  | cons n ids ih =>
    have hrest : clawBackEach L ids kept booked = .ok L := ih fun m hm => h m (List.mem_cons_of_mem _ hm)
    unfold clawBackEach at hrest ⊢
    rw [List.foldlM_cons]
    cases hl : loadEarning L n with
    | none => exact hrest
    | some e =>
      obtain ⟨hid, hst⟩ := h n List.mem_cons_self e hl
      have hsplit := sum_clawbacksIn_not L n
      subst hid
      have hfirst : settleClawback L e kept booked = .ok L := by
        simp only [settleClawback]
        rw [if_pos (by omega)]
      simp only [hfirst]
      exact hrest

/-- What selects an earning by its entity and its source selects its clawbacks too. -/
def Uniform (on : LedgerJournal → Leg → Bool) : Prop :=
  ∀ j j' e e', j.info.source = j'.info.source → e.tag = e'.tag → on j e = on j' e'

theorem uniform_onDocument (subject : Subject) (lineIds : List Id) : Uniform (onDocument subject lineIds) := by
  intro j j' e e' hs ht
  unfold onDocument
  rw [hs, ht]

theorem mem_earningsOn {on : LedgerJournal → Leg → Bool} {j : LedgerJournal} :
    j ∈ earningsOn on L ↔ j ∈ L ∧ j.info.event = .earning ∧
      ∃ e ∈ j.legs, (∃ s, e.key.owner = .staff s) ∧ on j e = true := by
  simp only [earningsOn, List.mem_filter, Bool.and_eq_true, decide_eq_true_eq, List.any_eq_true]
  refine and_congr_right fun _ => and_congr_right fun _ => exists_congr fun e => and_congr_right fun _ =>
    and_congr_left fun _ => ?_
  cases e.key.owner <;> simp

/-- Where no clawback is on the document, its earnings have none. -/
theorem no_clawbacks (h : WellKept L) (hc : ClawbacksKept L) {on : LedgerJournal → Leg → Bool}
    (hon : Uniform on) (hnone : (earningsOn on L).any (fun j => j.ref.isClawback) = false) {n : Nat}
    (hn : n ∈ accruedOn on L) : clawbacks L n = [] := by
  rw [List.eq_nil_iff_forall_not_mem]
  intro c hmem
  obtain ⟨j, hj, -, hev, i, hr⟩ := mem_clawbacks.1 hmem
  obtain ⟨j₀, hj₀, hid₀, -, hsrc, t, s, s', a, a', hl₀, hl⟩ := hc.alike j hj n i hr
  obtain ⟨j₁, hj₁, hmem₁, hid₁, -⟩ := mem_accruedOn hn
  obtain rfl : j₁ = j₀ := h.eq_of_id hmem₁ hj₀ (hid₁.trans hid₀.symm)
  obtain ⟨-, -, e, he, -, hsel⟩ := mem_earningsOn.1 hj₁
  have htag : e.tag = t := by
    rw [hl₀] at he
    obtain ⟨l, -, rfl⟩ := List.mem_map.1 he
    rfl
  have hfound : j ∈ earningsOn on L := by
    refine mem_earningsOn.2 ⟨hj, hev, { legOf (.staff s') .payable (-a') .pending with tag := t }, ?_, ⟨s', rfl⟩, ?_⟩
    · rw [hl]
      simp [earningLegs]
    · rw [← hsel]
      exact hon _ _ _ _ hsrc.symm htag.symm
  rw [List.any_eq_false] at hnone
  have hnot := hnone j hfound
  rw [hr] at hnot
  exact hnot rfl

/-- A run adds no earning of its own to a document. -/
theorem ClawbacksWritten.accruedOn_eq {ms : List Nat} (hx : ClawbacksWritten ms L L')
    (on : LedgerJournal → Leg → Bool) : accruedOn on L' = accruedOn on L := by
  obtain ⟨C, rfl, hC⟩ := hx
  have hnil : (earningsOn on C).filter (fun j => !j.ref.isClawback) = [] := by
    rw [List.filter_eq_nil_iff]
    intro j hj hr
    obtain ⟨hj, hev, -⟩ := mem_earningsOn.1 hj
    obtain ⟨m, -, ⟨c, -, -, -, he, -⟩ | ⟨href, -⟩, -⟩ := hC j hj
    · rw [hev] at he
      cases he
    · rw [href] at hr
      cases hr
  unfold accruedOn earningsOn at *
  rw [List.filter_append, List.filter_append, hnil, List.append_nil]

/-- Clawbacks are on staff costs and payables, so a document keeps what it kept. -/
theorem ClawbacksWritten.amountKept_eq {ms : List Nat} (hx : ClawbacksWritten ms L L') (subject : Subject)
    {category : Category} (hcost : category ≠ .staffCost) (hpay : category ≠ .payable) :
    amountKept L' subject category = amountKept L subject category := by
  have hgrows : Grows (fun r => ∀ id, r ≠ .disputeLost id) L L' := Extends.mono (fun j hj id hr => by
    obtain ⟨m, -, ⟨c, -, -, href, -⟩ | ⟨href, -⟩, -⟩ := hj
    · rw [href] at hr
      cases hr
    · rw [href] at hr
      cases hr) hx
  have hsettled : settled L' = settled L := settled_of_grows hgrows fun r hr => hr
  have hoff : ∀ j, (∃ m ∈ ms, ClawbackWritten L m j) → ∀ e ∈ j.legs, decide (e.key.category = category) = false := by
    rintro j ⟨m, -, -, hon⟩ e he
    refine decide_eq_false ?_
    rcases hon e he with h | h <;> rw [h]
    · exact hcost.symm
    · exact hpay.symm
  unfold amountKept
  simp only [hsettled]
  rw [hx.sum_eq fun j hj e he => by simp [hoff j hj e he], hx.sum_eq fun j hj e he => by simp [hoff j hj e he]]

end

/-! ## The refunded share -/

/-- What a clawback run leaves, for the amounts it kept and booked. -/
structure ClawbacksTracked (on : LedgerJournal → Leg → Bool) (amounts : Int × Int) (L L' : Ledger) : Prop where
  share : ∀ n ∈ accruedOn on L, ∀ e, loadEarning L' n = some e → standingClawbacks L' n =
    if e.status = .reversed then 0
    else -(e.amountCents - e.amountCents * max 0 (min amounts.1 amounts.2) / amounts.2)
  fresh : ∀ j ∈ L', j ∉ L → ∀ n i, j.ref = .earningClawback n i → L.has j.ref = false
  settled : ∀ n, ∀ c ∈ clawbacks L n, earningStatus L c = .approved ∨ earningStatus L c = .paid →
    loadEarning L' c = loadEarning L c ∧ ∀ q, ownOn L' c q = ownOn L c q
  again : clawBackOn L' on amounts = .ok L'

section
variable {L L' : Ledger} {ms : List Nat}

theorem ClawbacksWritten.fresh (hx : ClawbacksWritten ms L L') (hc : ClawbacksKept L) {j : LedgerJournal}
    (hj : j ∈ L') (hnot : j ∉ L) {n i : Nat} (hr : j.ref = .earningClawback n i) : L.has j.ref = false := by
  obtain ⟨m, -, ⟨c, -, -, href, -⟩ | ⟨href, -⟩, -⟩ := (hx.mem_or hj).resolve_left hnot
  · rw [hr] at href
    cases href
  · rw [Book.has_false_iff]
    intro j' hj' hr'
    rw [href] at hr'
    have hlt := hc.counted j' hj' _ _ hr'
    omega

/-- A clawback that is not pending is left alone. -/
theorem ClawbacksWritten.settled (hx : ClawbacksWritten ms L L') (h : EarningsKept L) (hc : ClawbacksKept L)
    (h' : WellKept L') {n c : Nat} (hmem : c ∈ clawbacks L n) (hs : earningStatus L c ≠ .pending) :
    loadEarning L' c = loadEarning L c ∧ ∀ q, ownOn L' c q = ownOn L c q := by
  obtain ⟨j₀, hj₀, hid₀, -, i, hr₀⟩ := mem_clawbacks.1 hmem
  have hsrc : ∀ j, (∃ m ∈ ms, ClawbackWritten L m j) →
      j.info.source ≠ some (.journal c) ∨ j.info.event.isStage = false := by
    rintro j ⟨m, -, ⟨c', -, hp, -, -, hs'⟩ | ⟨-, he⟩, -⟩
    · left
      rw [hs']
      intro heq
      obtain rfl : c' = c := by simpa using heq
      exact hs hp
    · right
      rw [he]
      rfl
  have hstatus : earningStatus L' c = earningStatus L c := by
    rw [earningStatus, stageRefs_of_extends hx hsrc, earningStatus]
  obtain ⟨C, rfl, hC⟩ := hx
  refine ⟨?_, fun q => ?_⟩
  · rw [loadEarning_append (by rw [← hid₀, journalOf_eq h.wellKept hj₀]; rfl), hstatus]
    cases hl : loadEarning L c with
    | none => rfl
    | some e => rw [Option.map_some, ← (h.load hl).2.2]
  · have hown : ∀ j ∈ C, ownJournal c j = false := by
      intro j hj
      have hid : j.id ≠ c := by
        intro hid
        obtain rfl := h'.eq_of_id (List.mem_append_right L hj) (List.mem_append_left C hj₀) (hid.trans hid₀.symm)
        obtain ⟨m, -, ⟨c', -, -, href, -⟩ | ⟨href, -⟩, -⟩ := hC j hj
        · rw [hr₀] at href
          cases href
        · rw [hr₀] at href
          cases href
          have hlt := hc.counted j hj₀ _ _ hr₀
          omega
      rcases hsrc j (hC j hj) with hne | he
      · simp [ownJournal, hid, hne]
      · simp [ownJournal, hid, he]
    have hx : Extends (fun j => ownJournal c j = false) L (L ++ C) := ⟨C, rfl, hown⟩
    exact hx.sum_eq fun j hj e _ => by rw [hj]; rfl

/-- What a run over some earnings leaves. -/
theorem clawBackOn_tracked (h : EarningsKept L) (hc : ClawbacksKept L) {on : LedgerJournal → Leg → Bool}
    (hon : Uniform on) {amounts : Int × Int} (hpos : 0 < amounts.2) (hr : clawBackOn L on amounts = .ok L') :
    ClawbacksTracked on amounts L L' := by
  obtain ⟨kept, booked⟩ := amounts
  obtain ⟨hk', hc', hx⟩ := clawBackOn_kept h hc hr
  have hplain : ∀ n ∈ accruedOn on L, (∀ m ∈ accruedOn on L, n ∉ clawbacks L m) ∧ (journalOf L n).isSome := by
    intro n hn
    obtain ⟨j, -, hj, hid, hr⟩ := mem_accruedOn hn
    refine ⟨fun m _ hmem => ?_, by rw [← hid, journalOf_eq h.wellKept hj]; rfl⟩
    obtain ⟨j', hj', hid', -, i, hr'⟩ := mem_clawbacks.1 hmem
    obtain rfl := h.wellKept.eq_of_id hj hj' (hid.trans hid'.symm)
    rw [hr'] at hr
    cases hr
  have hload : ∀ n ∈ accruedOn on L, loadEarning L' n = loadEarning L n := fun n hn =>
    (hx.load_eq h (hplain n hn).1 (hplain n hn).2).1
  -- the share, before the reversed earnings are told apart
  have hshare : ∀ n ∈ accruedOn on L, ∀ e, loadEarning L n = some e →
      standingClawbacks L' n = -clawbackDue e kept booked := by
    unfold clawBackOn at hr
    simp only at hr
    split at hr
    · next hearly =>
      cases hr
      intro n hn e _
      have hnil := no_clawbacks h.wellKept hc hon (by simpa using hearly.2) hn
      have hdue : clawbackDue e kept booked = 0 := by
        have hclamp : max 0 (min kept booked) = booked := by
          simp only at hpos
          have := hearly.1
          omega
        unfold clawbackDue
        split
        · rfl
        · rw [hclamp, Int.mul_ediv_cancel _ (by simp only at hpos; omega), Int.sub_self]
      rw [hdue]
      unfold standingClawbacks clawbacksIn
      rw [hnil]
      rfl
    · exact (clawBackEach_spec (nodup_accruedOn h.wellKept on) h hc (fun n hn => by
        obtain ⟨j, -, hj, hrest⟩ := mem_accruedOn hn
        exact ⟨j, hj, hrest⟩) hr).2.2.2
  refine ⟨?_, fun j hj hnot n i => hx.fresh hc hj hnot, ?_, ?_⟩
  · intro n hn e he
    rw [hshare n hn e (hload n hn ▸ he), clawbackDue]
    by_cases hs : e.status = .reversed
    · rw [if_pos (.inl hs), if_pos hs, Int.neg_zero]
    · rw [if_neg (by simp only at hpos; rintro (h | h) <;> [exact hs h; omega]), if_neg hs]
  · intro n c hmem hs
    refine hx.settled h hc hk'.wellKept hmem ?_
    rcases hs with hs | hs <;> rw [hs] <;> simp
  · unfold clawBackOn
    simp only
    split
    · rfl
    · show clawBackEach L' (accruedOn on L') kept booked = .ok L'
      rw [hx.accruedOn_eq]
      refine clawBackEach_settled fun n hn e he => ⟨(hk'.load he).1, ?_⟩
      exact hshare n hn e (hload n hn ▸ he)

end

/-- **The clawbacks track the refunded share**, on a document and on a package. -/
theorem clawbacks_track {L : Ledger} {as : List EarningAction} (hrun : Run EarningStep [] as L) :
    (∀ subject lineIds L', 0 < (amountKept L subject .revenue).2 → clawBack L subject lineIds = .ok L' →
      ClawbacksTracked (onDocument subject lineIds) (amountKept L subject .revenue) L L' ∧
        clawBack L' subject lineIds = .ok L') ∧
    ∀ packageId L', 0 < (amountKept L (.package packageId) .deferred).2 → clawBackPackage L packageId = .ok L' →
      ClawbacksTracked (fun j _ => decide (j.info.source = some (.package packageId)))
        (amountKept L (.package packageId) .deferred) L L' ∧ clawBackPackage L' packageId = .ok L' := by
  obtain ⟨hk, hc⟩ := earning_run hrun
  constructor
  · intro subject lineIds L' hpos hr
    obtain ⟨-, -, hx⟩ := clawBackOn_kept hk hc hr
    have htracked := clawBackOn_tracked hk hc (uniform_onDocument subject lineIds) hpos hr
    refine ⟨htracked, ?_⟩
    unfold clawBack
    rw [hx.amountKept_eq subject (by simp) (by simp)]
    exact htracked.again
  · intro packageId L' hpos hr
    obtain ⟨-, -, hx⟩ := clawBackOn_kept hk hc hr
    have htracked := clawBackOn_tracked hk hc (fun j j' e e' hs _ => by rw [hs]) hpos hr
    refine ⟨htracked, ?_⟩
    unfold clawBackPackage
    rw [hx.amountKept_eq (.package packageId) (by simp) (by simp)]
    exact htracked.again

/-- An invoice of 200.00, as it stands in the books. -/
def visitInvoice : Posting where
  event := .invoice
  ref := .invoice "inv_1"
  legs := [leg (.client "cli_1") .receivable 20000, leg .business .revenue (-20000)]
  subject := some (.invoice "inv_1")

/-- The earning of 100.00 on its visit's line. -/
def lineEarning : Posting where
  event := .earning
  ref := .earningAdjustment 0
  legs := [leg .business .staffCost 10000, legOf (.staff "sta_1") .payable (-10000) .pending]
  source := some (.line "lin_1")
  subject := some (.booking "bkg_1")

/-- A quarter of the invoice is refunded, and the refund fails. -/
def quarterRefund : Posting where
  event := .refund
  ref := .refund "ref_1"
  legs := [leg .business .revenue 5000, leg .business .stripe (-5000)]
  source := some (.payment "pay_1")
  subject := some (.invoice "inv_1")

def quarterBack : Posting where
  event := .reversal
  ref := .failed (.refund "ref_1")
  legs := [leg .business .revenue (-5000), leg .business .stripe 5000]
  source := some (.payment "pay_1")
  subject := some (.invoice "inv_1")

def visitBooks : Ledger :=
  (visitInvoice :: lineEarning :: [quarterRefund]).foldl (fun L q => (post L q).toOption.getD L) []

def visitBooks₁ : Ledger := (clawBack visitBooks (.invoice "inv_1") ["lin_1"]).toOption.get (by decide)

def visitBooks₂ : Ledger := (moveMany visitBooks₁ [1] .pay 1).toOption.get (by decide)

def visitBooks₃ : Ledger := (post visitBooks₂ quarterBack).toOption.get (by decide)

def visitBooks₄ : Ledger := (clawBack visitBooks₃ (.invoice "inv_1") ["lin_1"]).toOption.get (by decide)

/-- The quarter was held back and paid out with the earning; once the refund failed it is given
back by a second clawback, of plus 25.00. -/
theorem visitBooks_tracked :
    ClawbacksTracked (onDocument (.invoice "inv_1") ["lin_1"]) (20000, 20000) visitBooks₃ visitBooks₄ := by
  have hpost : ∀ L (q : Posting), (∀ k, q.source ≠ some (.journal k)) → q.ref.isStaged = false →
      q.event.isEarning = false → q.ref.isClawback = false →
      ∀ h : (post L q).toOption.isSome, EarningStep L (.post q) ((post L q).toOption.get h) := by
    intro L q hs hr he hc h
    refine .post ⟨hr, fun k hk => absurd hk (hs k), fun hearn => ?_⟩ hc (eq_ok_get h)
    rw [he] at hearn
    cases hearn
  have hearned : EarningStep ((post [] visitInvoice).toOption.get (by decide)) (.post lineEarning)
      ((post ((post [] visitInvoice).toOption.get (by decide)) lineEarning).toOption.get (by decide)) := by
    refine .post ⟨rfl, ?_, fun _ => ⟨rfl, "sta_1", 10000, none, rfl⟩⟩ rfl (eq_ok_get (by decide))
    intro k hk
    cases hk
  have hrun : Run EarningStep [] [.post visitInvoice, .post lineEarning, .post quarterRefund,
      .clawBack (.invoice "inv_1") ["lin_1"], .move [1] .pay 1, .post quarterBack] visitBooks₃ := by
    refine .cons (hpost [] visitInvoice (fun k hk => by cases hk) rfl rfl rfl (by decide)) (.cons hearned
      (.cons (hpost _ quarterRefund (fun k hk => by cases hk) rfl rfl rfl (by decide)) (.cons (t := visitBooks₁) ?_
        (.cons (t := visitBooks₂) ?_ (.cons (hpost _ quarterBack (fun k hk => by cases hk) rfl rfl rfl (by decide)) .nil)))))
    · exact .clawBack (eq_ok_get (by decide))
    · exact .move (eq_ok_get (by decide))
  have htracked := (clawbacks_track hrun).1 (.invoice "inv_1") ["lin_1"] visitBooks₄ (by decide)
    (eq_ok_get (by decide))
  exact htracked.1

end ClientBridge
