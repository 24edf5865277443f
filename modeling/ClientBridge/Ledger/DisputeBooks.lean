import ClientBridge.Ledger.Disputes
import ClientBridge.Ledger.RefundSplits

/-!
# What the books say of a dispute

`disputeBooks` reads the flags and the totals of a dispute off its journals.  While it is booked on its terms
(`DisputeKept`), each operation joins them with what it was told, and the Stripe balance and the receivable
follow from them alone.
-/

namespace ClientBridge

open Bookkeeping

/-! ## The flags and totals of a dispute -/

/-- What was posted of a dispute.  Every posting adds to it. -/
@[ext] structure DisputeBooks where
  withdrawn : Bool
  won : Bool
  lost : Bool
  fee : Nat
  feeReturned : Nat
  reinstated : Nat
  deriving DecidableEq, Repr

/-- A disputed amount, and what handing back so much of it leaves after fees. -/
structure DisputeTerms where
  amount : Int
  net : Nat → Int
  amount_pos : 0 < amount
  net_zero : net 0 = 0

namespace DisputeBooks

def parts (b : DisputeBooks) : Bool × Bool × Bool × Nat × Nat × Nat :=
  (b.withdrawn, b.won, b.lost, b.fee, b.feeReturned, b.reinstated)

theorem parts_injective : Function.Injective parts := by
  intro a b h
  simp only [parts, Prod.mk.injEq] at h
  obtain ⟨h₁, h₂, h₃, h₄, h₅, h₆⟩ := h
  exact DisputeBooks.ext h₁ h₂ h₃ h₄ h₅ h₆

instance : Max DisputeBooks where
  max a b := {
    withdrawn := a.withdrawn || b.withdrawn
    won := a.won || b.won
    lost := a.lost || b.lost
    fee := max a.fee b.fee
    feeReturned := max a.feeReturned b.feeReturned
    reinstated := max a.reinstated b.reinstated }

instance : LE DisputeBooks := ⟨fun a b => a.parts ≤ b.parts⟩

instance : LT DisputeBooks := ⟨fun a b => a.parts < b.parts⟩

noncomputable instance : SemilatticeSup DisputeBooks :=
  parts_injective.semilatticeSup parts Iff.rfl Iff.rfl fun _ _ => rfl

/-- The books of a dispute nothing was posted of. -/
def unposted : DisputeBooks := ⟨false, false, false, 0, 0, 0⟩

section
variable (a b : DisputeBooks)

@[simp] theorem sup_withdrawn : (a ⊔ b).withdrawn = (a.withdrawn || b.withdrawn) := rfl

@[simp] theorem sup_won : (a ⊔ b).won = (a.won || b.won) := rfl

@[simp] theorem sup_lost : (a ⊔ b).lost = (a.lost || b.lost) := rfl

@[simp] theorem sup_fee : (a ⊔ b).fee = max a.fee b.fee := rfl

@[simp] theorem sup_feeReturned : (a ⊔ b).feeReturned = max a.feeReturned b.feeReturned := rfl

@[simp] theorem sup_reinstated : (a ⊔ b).reinstated = max a.reinstated b.reinstated := rfl

end

theorem sup_unposted (b : DisputeBooks) : b ⊔ unposted = b :=
  DisputeBooks.ext (Bool.or_false _) (Bool.or_false _) (Bool.or_false _) (Nat.max_zero _) (Nat.max_zero _)
    (Nat.max_zero _)

variable (terms : DisputeTerms)

/-- What a dispute did to the Stripe balance. -/
def cash (b : DisputeBooks) : Int :=
  (if b.won then terms.amount else 0) - (if b.withdrawn then terms.amount else 0) - b.fee + b.feeReturned +
    terms.net b.reinstated

/-- What the payer owes over a dispute. -/
def owed (b : DisputeBooks) : Int :=
  (if b.withdrawn then terms.amount else 0) - (if b.won then terms.amount else 0) - if b.lost then terms.amount else 0

theorem cash_sup_fee {b : DisputeBooks} {n : Nat} (h : b.fee ≤ n) :
    (b ⊔ { unposted with fee := n }).cash terms = b.cash terms + (b.fee - n) := by
  simp only [cash, unposted, sup_won, sup_withdrawn, sup_fee, sup_feeReturned, sup_reinstated, Bool.or_false,
    max_eq_right h, Nat.max_zero]
  ring

theorem cash_sup_feeReturned {b : DisputeBooks} {n : Nat} (h : b.feeReturned ≤ n) :
    (b ⊔ { unposted with feeReturned := n }).cash terms = b.cash terms + (n - b.feeReturned) := by
  simp only [cash, unposted, sup_won, sup_withdrawn, sup_fee, sup_feeReturned, sup_reinstated, Bool.or_false,
    max_eq_right h, Nat.max_zero]
  ring

theorem cash_sup_reinstated {b : DisputeBooks} {n : Nat} (h : b.reinstated ≤ n) :
    (b ⊔ { unposted with reinstated := n }).cash terms = b.cash terms + (terms.net n - terms.net b.reinstated) := by
  simp only [cash, unposted, sup_won, sup_withdrawn, sup_fee, sup_feeReturned, sup_reinstated, Bool.or_false,
    max_eq_right h, Nat.max_zero]
  ring

end DisputeBooks

def Ref.ofDispute (disputeId : Id) : Ref → Bool
  | .dispute id | .disputeWon id | .disputeLost id | .disputeReinstated id _ | .disputeFee id _ |
    .disputeFeeWon id _ => decide (id = disputeId)
  | _ => false

def disputeBooks (L : Ledger) (disputeId : Id) : DisputeBooks where
  withdrawn := L.has (.dispute disputeId)
  won := L.has (.disputeWon disputeId)
  lost := L.has (.disputeLost disputeId)
  fee := (recordedFee L disputeId).toNat
  feeReturned := (returnedFee L disputeId).toNat
  reinstated := (reinstated L disputeId).toNat

/-- What a dispute's journals put on the accounts of a kind. -/
def disputeOn (L : Ledger) (disputeId : Id) (category : Category) : Int :=
  onAccounts L (Ref.ofDispute disputeId) (onCategory category)

/-- A dispute that is booked on its terms: its rows are named by what they bring the total to. -/
structure DisputeKept (terms : DisputeTerms) (disputeId : Id) (L : Ledger) : Prop where
  withdrawal : ∀ j ∈ L, j.ref = .dispute disputeId →
    keyed (onCategory .stripe) j.legs = -terms.amount ∧ keyed (onCategory .receivable) j.legs = terms.amount
  fees : ∀ n, L.has (.disputeFee disputeId n) = true →
    0 < recordedFee L disputeId ∧ ∀ m ∈ n, m ≤ recordedFee L disputeId
  returns : ∀ n, L.has (.disputeFeeWon disputeId n) = true →
    0 < returnedFee L disputeId ∧ ∀ m ∈ n, m ≤ returnedFee L disputeId
  reinstatements : ∀ m, L.has (.disputeReinstated disputeId (some m)) = true → m ≤ reinstated L disputeId
  nonneg : 0 ≤ reinstated L disputeId
  net : reinstatedNet L disputeId = terms.net (reinstated L disputeId).toNat
  cash : disputeOn L disputeId .stripe = (disputeBooks L disputeId).cash terms
  owed : disputeOn L disputeId .receivable = (disputeBooks L disputeId).owed terms

section
variable {L L' : Ledger} {disputeId : Id} {terms : DisputeTerms}

theorem recordedFee_nonneg (L : Ledger) (disputeId : Id) : 0 ≤ recordedFee L disputeId := by
  refine Book.sum_nonneg fun j _ e _ h => ?_
  simp only [Bool.and_eq_true, decide_eq_true_eq] at h
  omega

theorem returnedFee_nonneg (L : Ledger) (disputeId : Id) : 0 ≤ returnedFee L disputeId := by
  unfold returnedFee
  have h : L.sum (fun j e => j.ref.isDisputeFee disputeId &&
      (decide (e.key.category = .processingFee) && decide (e.cents < 0))) ≤ 0 := by
    refine Book.sum_nonpos fun j _ e _ h => ?_
    simp only [Bool.and_eq_true, decide_eq_true_eq] at h
    omega
  omega

/-- What a posting adds to a sum over some references. -/
theorem sum_under {R : Ref → Bool} {c : Leg → Bool} (hc : ∀ e t, c { e with tag := t } = c e) (L : Ledger) (p : Posting) :
    (L.write p.ref p.info p.written).sum (fun j e => R j.ref && c e) =
      L.sum (fun j e => R j.ref && c e) + if L.has p.ref || !R p.ref then 0 else sumOf c p.legs := by
  rw [Book.sum_write]
  cases hr : R p.ref with
  | true => simp [sumOf_written p c hc]
  | false => simp [sumOf_false]

/-! ## What a posting does to the books -/

/-- What a journal of a dispute adds to its numbers. -/
structure Adds (disputeId : Id) (L L' : Ledger) (p : Posting) (fee returned back net : Int) : Prop where
  has : ∀ r, L'.has r = (L.has r || decide (p.ref = r))
  fee : recordedFee L' disputeId = recordedFee L disputeId + fee
  returned : returnedFee L' disputeId = returnedFee L disputeId + returned
  back : reinstated L' disputeId = reinstated L disputeId + back
  net : reinstatedNet L' disputeId = reinstatedNet L disputeId + net
  on : ∀ category, disputeOn L' disputeId category = disputeOn L disputeId category + keyed (onCategory category) p.legs

theorem written_ne_nil {p : Posting} {q : AccountKey → Bool} (h : keyed q p.legs ≠ 0) : p.written ≠ [] := by
  intro he
  apply h
  rw [← keyed_written, he]
  rfl

theorem adds_posted {p : Posting} {fee returned back net : Int} (hnew : L.has p.ref = false) (hw : p.written ≠ [])
    (hr : p.ref.ofDispute disputeId = true)
    (hfee : (if p.ref.isDisputeFee disputeId then
      sumOf (fun e => decide (e.key.category = .processingFee) && decide (0 < e.cents)) p.legs else 0) = fee)
    (hret : (if p.ref.isDisputeFee disputeId then
      -sumOf (fun e => decide (e.key.category = .processingFee) && decide (e.cents < 0)) p.legs else 0) = returned)
    (hback : (if p.ref.isReinstated disputeId then -keyed (onCategory .loss) p.legs else 0) = back)
    (hnet : (if p.ref.isReinstated disputeId then keyed (onCategory .stripe) p.legs else 0) = net) :
    Adds disputeId L (L.write p.ref p.info p.written) p fee returned back net := by
  subst hfee hret hback hnet
  constructor
  · intro r
    rw [Book.has_write, List.isEmpty_eq_false_iff.2 hw, Bool.not_false, Bool.and_true]
  · unfold recordedFee
    rw [sum_under fun _ _ => rfl, hnew]
    cases p.ref.isDisputeFee disputeId <;> rfl
  · unfold returnedFee
    rw [sum_under fun _ _ => rfl, hnew, Int.neg_add]
    cases p.ref.isDisputeFee disputeId <;> rfl
  · show -onAccounts _ (Ref.isReinstated disputeId) (onCategory .loss) = _
    rw [onAccounts_posted, hnew, Int.neg_add]
    cases p.ref.isReinstated disputeId <;> rfl
  · show onAccounts _ (Ref.isReinstated disputeId) (onCategory .stripe) = _
    rw [onAccounts_posted, hnew]
    cases p.ref.isReinstated disputeId <;> rfl
  · intro category
    unfold disputeOn
    rw [onAccounts_posted, hnew, hr]
    rfl

/-- A new journal keeps a dispute booked on its terms, if its row is named by what it brings the total to. -/
theorem DisputeKept.adds (h : DisputeKept terms disputeId L) {p : Posting} {fee returned back net : Int}
    (ha : Adds disputeId L (L.write p.ref p.info p.written) p fee returned back net)
    (hfee₀ : 0 ≤ fee) (hret₀ : 0 ≤ returned) (hback₀ : 0 ≤ back)
    (hdispute : p.ref = .dispute disputeId →
      keyed (onCategory .stripe) p.legs = -terms.amount ∧ keyed (onCategory .receivable) p.legs = terms.amount)
    (hfee : ∀ n, p.ref = .disputeFee disputeId n →
      0 < recordedFee L disputeId + fee ∧ ∀ m ∈ n, m ≤ recordedFee L disputeId + fee)
    (hret : ∀ n, p.ref = .disputeFeeWon disputeId n →
      0 < returnedFee L disputeId + returned ∧ ∀ m ∈ n, m ≤ returnedFee L disputeId + returned)
    (hback : ∀ m, p.ref = .disputeReinstated disputeId (some m) → m ≤ reinstated L disputeId + back)
    (hnet : reinstatedNet L disputeId + net = terms.net (reinstated L disputeId + back).toNat)
    {b : DisputeBooks} (hb : disputeBooks (L.write p.ref p.info p.written) disputeId = b)
    (hcash : (disputeBooks L disputeId).cash terms + keyed (onCategory .stripe) p.legs = b.cash terms)
    (howed : (disputeBooks L disputeId).owed terms + keyed (onCategory .receivable) p.legs = b.owed terms) :
    DisputeKept terms disputeId (L.write p.ref p.info p.written) := by
  have hor : ∀ r, (L.write p.ref p.info p.written).has r = true → L.has r = true ∨ p.ref = r := by
    intro r hr
    rw [ha.has, Bool.or_eq_true, decide_eq_true_eq] at hr
    exact hr
  refine ⟨fun j hj href => ?_, fun n hn => ?_, fun n hn => ?_, fun m hm => ?_, ?_, ?_, ?_, ?_⟩
  · rcases Book.mem_write hj with hj | ⟨-, -, rfl⟩
    · exact h.withdrawal j hj href
    · rw [keyed_written, keyed_written]
      exact hdispute href
  · rw [ha.fee]
    rcases hor _ hn with hn | hn
    · obtain ⟨hpos, hle⟩ := h.fees n hn
      exact ⟨by omega, fun m hm => (hle m hm).trans (by omega)⟩
    · exact hfee n hn
  · rw [ha.returned]
    rcases hor _ hn with hn | hn
    · obtain ⟨hpos, hle⟩ := h.returns n hn
      exact ⟨by omega, fun m hm => (hle m hm).trans (by omega)⟩
    · exact hret n hn
  · rw [ha.back]
    rcases hor _ hm with hm | hm
    · exact (h.reinstatements m hm).trans (by omega)
    · exact hback m hm
  · have := h.nonneg
    rw [ha.back]
    omega
  · rw [ha.net, ha.back, hnet]
  · rw [ha.on, h.cash, hb, hcash]
  · rw [ha.on, h.owed, hb, howed]

theorem Adds.books {p : Posting} {fee returned back net : Int} (ha : Adds disputeId L L' p fee returned back net) :
    disputeBooks L' disputeId = {
      withdrawn := L.has (.dispute disputeId) || decide (p.ref = .dispute disputeId)
      won := L.has (.disputeWon disputeId) || decide (p.ref = .disputeWon disputeId)
      lost := L.has (.disputeLost disputeId) || decide (p.ref = .disputeLost disputeId)
      fee := (recordedFee L disputeId + fee).toNat
      feeReturned := (returnedFee L disputeId + returned).toNat
      reinstated := (reinstated L disputeId + back).toNat } := by
  rw [disputeBooks, ha.has, ha.has, ha.has, ha.fee, ha.returned, ha.back]

/-- The first withdrawal is booked, a repeated one is not. -/
theorem DisputeKept.withdraw (h : DisputeKept terms disputeId L) (payment : Payment) (subject : Subject) :
    let p := withdrawalPosting payment subject disputeId terms.amount
    DisputeKept terms disputeId (L.write p.ref p.info p.written) ∧
      disputeBooks (L.write p.ref p.info p.written) disputeId =
        disputeBooks L disputeId ⊔ { DisputeBooks.unposted with withdrawn := true } := by
  intro p
  have hpos := terms.amount_pos
  cases hnew : L.has p.ref with
  | true =>
    rw [Book.write_of_has hnew]
    refine ⟨h, DisputeBooks.ext ?_ (Bool.or_false _).symm (Bool.or_false _).symm (Nat.max_zero _).symm
      (Nat.max_zero _).symm (Nat.max_zero _).symm⟩
    exact hnew.trans (Bool.or_true _).symm
  | false =>
    have hstripe : keyed (onCategory .stripe) p.legs = -terms.amount := by
      simp [p, withdrawalPosting, onCategory]
    have howed : keyed (onCategory .receivable) p.legs = terms.amount := by
      simp [p, withdrawalPosting, onCategory]
    have ha : Adds disputeId L (L.write p.ref p.info p.written) p 0 0 0 0 :=
      adds_posted hnew (written_ne_nil (q := onCategory .stripe) (by omega)) (decide_eq_true rfl) rfl rfl rfl rfl
    have hb : disputeBooks (L.write p.ref p.info p.written) disputeId =
        disputeBooks L disputeId ⊔ { DisputeBooks.unposted with withdrawn := true } := by
      rw [ha.books]
      ext <;> simp [disputeBooks, p, withdrawalPosting, DisputeBooks.unposted]
    refine ⟨h.adds ha le_rfl le_rfl le_rfl (fun _ => ⟨hstripe, howed⟩) (fun n hn => ?_) (fun n hn => ?_) (fun m hm => ?_)
      ?_ hb ?_ ?_, hb⟩
    · cases hn
    · cases hn
    · cases hm
    · rw [Int.add_zero, Int.add_zero, h.net]
    · have hout : (disputeBooks L disputeId).withdrawn = false := hnew
      simp [DisputeBooks.cash, DisputeBooks.unposted, hstripe, hout]
      omega
    · have hout : (disputeBooks L disputeId).withdrawn = false := hnew
      simp [DisputeBooks.owed, DisputeBooks.unposted, howed, hout]
      omega

/-- A fee above the one recorded brings it up to that. -/
theorem DisputeKept.takeFee (h : DisputeKept terms disputeId L) (payment : Payment) (subject : Subject) {fee : Int}
    (hlt : recordedFee L disputeId < fee) :
    let p := feeTakenPosting payment subject disputeId (recordedFee L disputeId) fee
    DisputeKept terms disputeId (L.write p.ref p.info p.written) ∧
      disputeBooks (L.write p.ref p.info p.written) disputeId =
        disputeBooks L disputeId ⊔ { DisputeBooks.unposted with fee := fee.toNat } := by
  intro p
  have hfee := recordedFee_nonneg L disputeId
  have hret := returnedFee_nonneg L disputeId
  have hnew : L.has p.ref = false := by
    rw [Bool.eq_false_iff]
    intro hhas
    obtain ⟨hpos, hle⟩ := h.fees _ hhas
    split at hle
    · omega
    · exact absurd (hle fee rfl) (by omega)
  have hstripe : keyed (onCategory .stripe) p.legs = recordedFee L disputeId - fee := by
    simp [p, feeTakenPosting, onCategory]
  have howed : keyed (onCategory .receivable) p.legs = 0 := by
    simp [p, feeTakenPosting, onCategory]
  have ha : Adds disputeId L (L.write p.ref p.info p.written) p (fee - recordedFee L disputeId) 0 0 0 := by
    refine adds_posted hnew (written_ne_nil (q := onCategory .stripe) (by omega)) (decide_eq_true rfl) ?_ ?_ rfl rfl
    · simp [p, feeTakenPosting, Ref.isDisputeFee]
      omega
    · simp [p, feeTakenPosting, Ref.isDisputeFee]
      omega
  have hb : disputeBooks (L.write p.ref p.info p.written) disputeId =
      disputeBooks L disputeId ⊔ { DisputeBooks.unposted with fee := fee.toNat } := by
    rw [ha.books]
    ext <;> simp [disputeBooks, p, feeTakenPosting, DisputeBooks.unposted]
    omega
  refine ⟨h.adds ha (by omega) le_rfl le_rfl (fun hr => ?_) (fun n hn => ?_) (fun n hn => ?_) (fun m hm => ?_)
    ?_ hb ?_ ?_, hb⟩
  · cases hr
  · obtain rfl := (Ref.disputeFee.inj hn).2
    refine ⟨by omega, fun m hm => ?_⟩
    split at hm
    · cases hm
    · obtain rfl := Option.some.inj hm
      omega
  · cases hn
  · cases hm
  · rw [Int.add_zero, Int.add_zero, h.net]
  · rw [DisputeBooks.cash_sup_fee terms (Int.toNat_le_toNat hlt.le), hstripe]
    show _ = _ + (((recordedFee L disputeId).toNat : Int) - fee.toNat)
    omega
  · simp [DisputeBooks.owed, DisputeBooks.unposted, howed]

/-- A won dispute turns its withdrawal around once. -/
theorem DisputeKept.win (h : DisputeKept terms disputeId L) {j : LedgerJournal} (hj : j ∈ L)
    (href : j.ref = .dispute disputeId) (source : Option Source) :
    let p := reversal j (.disputeWon disputeId) .dispute source {}
    DisputeKept terms disputeId (L.write p.ref p.info p.written) ∧
      disputeBooks (L.write p.ref p.info p.written) disputeId =
        disputeBooks L disputeId ⊔ { DisputeBooks.unposted with won := true } := by
  intro p
  have hpos := terms.amount_pos
  obtain ⟨hs, ho⟩ := h.withdrawal j hj href
  cases hnew : L.has p.ref with
  | true =>
    rw [Book.write_of_has hnew]
    refine ⟨h, DisputeBooks.ext (Bool.or_false _).symm ?_ (Bool.or_false _).symm (Nat.max_zero _).symm
      (Nat.max_zero _).symm (Nat.max_zero _).symm⟩
    exact hnew.trans (Bool.or_true _).symm
  | false =>
    have hstripe : keyed (onCategory .stripe) p.legs = terms.amount := by
      show sumOf _ (negate j.legs) = _
      rw [sumOf_negate _ fun _ _ => rfl]
      exact (congrArg Neg.neg hs).trans (Int.neg_neg _)
    have howed : keyed (onCategory .receivable) p.legs = -terms.amount := by
      show sumOf _ (negate j.legs) = _
      rw [sumOf_negate _ fun _ _ => rfl]
      exact congrArg Neg.neg ho
    have ha : Adds disputeId L (L.write p.ref p.info p.written) p 0 0 0 0 :=
      adds_posted hnew (written_ne_nil (q := onCategory .stripe) (by omega)) (decide_eq_true rfl) rfl rfl rfl rfl
    have hb : disputeBooks (L.write p.ref p.info p.written) disputeId =
        disputeBooks L disputeId ⊔ { DisputeBooks.unposted with won := true } := by
      rw [ha.books]
      ext <;> simp [disputeBooks, p, reversal, DisputeBooks.unposted]
    have hout : (disputeBooks L disputeId).won = false := hnew
    refine ⟨h.adds ha le_rfl le_rfl le_rfl (fun hr => ?_) (fun n hn => ?_) (fun n hn => ?_) (fun m hm => ?_)
      ?_ hb ?_ ?_, hb⟩
    · cases hr
    · cases hn
    · cases hn
    · cases hm
    · rw [Int.add_zero, Int.add_zero, h.net]
    · simp [DisputeBooks.cash, DisputeBooks.unposted, hstripe, hout]
      omega
    · simp [DisputeBooks.owed, DisputeBooks.unposted, howed, hout]
      omega

/-- A returned fee above the one recorded brings it up to that. -/
theorem DisputeKept.returnFee (h : DisputeKept terms disputeId L) (row : LedgerJournal) {fee : Int}
    (hlt : returnedFee L disputeId < fee) :
    let p := feeReturnedPosting row disputeId (returnedFee L disputeId) fee
    DisputeKept terms disputeId (L.write p.ref p.info p.written) ∧
      disputeBooks (L.write p.ref p.info p.written) disputeId =
        disputeBooks L disputeId ⊔ { DisputeBooks.unposted with feeReturned := fee.toNat } := by
  intro p
  have hfee := recordedFee_nonneg L disputeId
  have hret := returnedFee_nonneg L disputeId
  have hnew : L.has p.ref = false := by
    rw [Bool.eq_false_iff]
    intro hhas
    obtain ⟨hpos, hle⟩ := h.returns _ hhas
    split at hle
    · omega
    · exact absurd (hle fee rfl) (by omega)
  have hstripe : keyed (onCategory .stripe) p.legs = fee - returnedFee L disputeId := by
    simp [p, feeReturnedPosting, onCategory]
  have howed : keyed (onCategory .receivable) p.legs = 0 := by
    simp [p, feeReturnedPosting, onCategory]
  have ha : Adds disputeId L (L.write p.ref p.info p.written) p 0 (fee - returnedFee L disputeId) 0 0 := by
    refine adds_posted hnew (written_ne_nil (q := onCategory .stripe) (by omega)) (decide_eq_true rfl) ?_ ?_ rfl rfl
    · simp [p, feeReturnedPosting, Ref.isDisputeFee]
      omega
    · simp [p, feeReturnedPosting, Ref.isDisputeFee]
      omega
  have hb : disputeBooks (L.write p.ref p.info p.written) disputeId =
      disputeBooks L disputeId ⊔ { DisputeBooks.unposted with feeReturned := fee.toNat } := by
    rw [ha.books]
    ext <;> simp [disputeBooks, p, feeReturnedPosting, DisputeBooks.unposted]
    omega
  refine ⟨h.adds ha le_rfl (by omega) le_rfl (fun hr => ?_) (fun n hn => ?_) (fun n hn => ?_) (fun m hm => ?_)
    ?_ hb ?_ ?_, hb⟩
  · cases hr
  · cases hn
  · obtain rfl := (Ref.disputeFeeWon.inj hn).2
    refine ⟨by omega, fun m hm => ?_⟩
    split at hm
    · cases hm
    · obtain rfl := Option.some.inj hm
      omega
  · cases hm
  · rw [Int.add_zero, Int.add_zero, h.net]
  · rw [DisputeBooks.cash_sup_feeReturned terms (Int.toNat_le_toNat hlt.le), hstripe]
    show _ = _ + ((fee.toNat : Int) - (returnedFee L disputeId).toNat)
    omega
  · simp [DisputeBooks.owed, DisputeBooks.unposted, howed]

/-- What unwinding a sale puts on accounts it does not unwind. -/
theorem keyed_refundLegs (db : Db) (original : Payment) (returned : Int) (refundId : Id) {c : Category}
    (hc : c.isUnwound = false) (hl : c ≠ .loss) (ht : c ≠ .staffCost) :
    keyed (onCategory c) (refundLegs db original returned refundId false) = 0 := by
  obtain ⟨zs, hlegs, hzs⟩ := refundLegs_split db original returned refundId false
  rw [hlegs, keyed_append, tipLegs]
  have hz : keyed (onCategory c) zs = 0 := by
    refine sumOf_eq_zero fun e he hk => ?_
    have hk : e.key.category = c := of_decide_eq_true hk
    rcases hzs e he with hu | hu | ⟨hu, -⟩
    · rw [hk, hc] at hu
      cases hu
    · exact absurd (hk.symm.trans hu) hl
    · cases hu
  rw [hz]
  split
  · rfl
  · simp [onCategory, ht.symm]

/-- A lost dispute unwinds the sale once. -/
theorem DisputeKept.lose (h : DisputeKept terms disputeId L) (db : Db) (payment : Payment) (subject : Subject) :
    let p := lossPosting payment subject disputeId terms.amount (refundLegs db payment terms.amount "" false)
    DisputeKept terms disputeId (L.write p.ref p.info p.written) ∧
      disputeBooks (L.write p.ref p.info p.written) disputeId =
        disputeBooks L disputeId ⊔ { DisputeBooks.unposted with lost := true } := by
  intro p
  have hpos := terms.amount_pos
  cases hnew : L.has p.ref with
  | true =>
    rw [Book.write_of_has hnew]
    refine ⟨h, DisputeBooks.ext (Bool.or_false _).symm (Bool.or_false _).symm ?_ (Nat.max_zero _).symm
      (Nat.max_zero _).symm (Nat.max_zero _).symm⟩
    exact hnew.trans (Bool.or_true _).symm
  | false =>
    have hlegs : ∀ c, keyed (onCategory c) p.legs = (if c = .receivable then -terms.amount else 0) +
        keyed (onCategory c) (refundLegs db payment terms.amount "" false) := by
      intro c
      simp [p, lossPosting, onCategory, eq_comm]
    have hstripe : keyed (onCategory .stripe) p.legs = 0 := by
      rw [hlegs, keyed_refundLegs _ _ _ _ rfl (by decide) (by decide)]
      rfl
    have howed : keyed (onCategory .receivable) p.legs = -terms.amount := by
      rw [hlegs, keyed_refundLegs _ _ _ _ rfl (by decide) (by decide), if_pos rfl, Int.add_zero]
    have ha : Adds disputeId L (L.write p.ref p.info p.written) p 0 0 0 0 :=
      adds_posted hnew (written_ne_nil (q := onCategory .receivable) (by omega)) (decide_eq_true rfl) rfl rfl rfl rfl
    have hb : disputeBooks (L.write p.ref p.info p.written) disputeId =
        disputeBooks L disputeId ⊔ { DisputeBooks.unposted with lost := true } := by
      rw [ha.books]
      ext <;> simp [disputeBooks, p, lossPosting, DisputeBooks.unposted]
    have hout : (disputeBooks L disputeId).lost = false := hnew
    refine ⟨h.adds ha le_rfl le_rfl le_rfl (fun hr => ?_) (fun n hn => ?_) (fun n hn => ?_) (fun m hm => ?_)
      ?_ hb ?_ ?_, hb⟩
    · cases hr
    · cases hn
    · cases hn
    · cases hm
    · rw [Int.add_zero, Int.add_zero, h.net]
    · simp [DisputeBooks.cash, DisputeBooks.unposted, hstripe]
    · simp [DisputeBooks.owed, DisputeBooks.unposted, howed, hout]
      omega

/-- Funds handed back above those booked bring them up to that. -/
theorem DisputeKept.reinstate (h : DisputeKept terms disputeId L) (payment : Payment) (subject : Subject)
    {amount : Int} (hlt : reinstated L disputeId < amount) :
    let p := reinstatedPosting payment subject disputeId (!L.any fun j => j.ref.isReinstated disputeId)
      (reinstated L disputeId) (reinstatedNet L disputeId) amount (terms.net amount.toNat)
    DisputeKept terms disputeId (L.write p.ref p.info p.written) ∧
      disputeBooks (L.write p.ref p.info p.written) disputeId =
        disputeBooks L disputeId ⊔ { DisputeBooks.unposted with reinstated := amount.toNat } := by
  intro p
  have h0 := h.nonneg
  have hnew : L.has p.ref = false := by
    refine (L.has_false_iff _).2 fun j hj href => ?_
    -- the first row has a name of its own, and a later one that of its total
    cases hany : L.any fun j => j.ref.isReinstated disputeId with
    | false =>
      have hno := List.any_eq_false.1 hany j hj
      rw [href] at hno
      exact hno (decide_eq_true rfl)
    | true =>
      have hhas : L.has (.disputeReinstated disputeId (some amount)) = true := by
        refine (L.has_iff _).2 ⟨j, hj, href.trans ?_⟩
        simp [p, reinstatedPosting, hany]
      have := h.reinstatements amount hhas
      omega
  have hstripe : keyed (onCategory .stripe) p.legs = terms.net amount.toNat - reinstatedNet L disputeId := by
    simp [p, reinstatedPosting, onCategory]
  have howed : keyed (onCategory .receivable) p.legs = 0 := by
    simp [p, reinstatedPosting, onCategory]
  have hloss : keyed (onCategory .loss) p.legs = reinstated L disputeId - amount := by
    simp [p, reinstatedPosting, onCategory]
  have hback : p.ref.isReinstated disputeId = true := decide_eq_true rfl
  have ha : Adds disputeId L (L.write p.ref p.info p.written) p 0 0 (amount - reinstated L disputeId)
      (terms.net amount.toNat - reinstatedNet L disputeId) := by
    refine adds_posted hnew (written_ne_nil (q := onCategory .loss) (by omega)) (decide_eq_true rfl) rfl rfl ?_ ?_
    · rw [if_pos hback, hloss]
      omega
    · rw [if_pos hback, hstripe]
  have hb : disputeBooks (L.write p.ref p.info p.written) disputeId =
      disputeBooks L disputeId ⊔ { DisputeBooks.unposted with reinstated := amount.toNat } := by
    rw [ha.books]
    ext <;> simp [disputeBooks, p, reinstatedPosting, DisputeBooks.unposted]
    omega
  refine ⟨h.adds ha le_rfl le_rfl (by omega) (fun hr => ?_) (fun n hn => ?_) (fun n hn => ?_) (fun m hm => ?_)
    ?_ hb ?_ ?_, hb⟩
  · cases hr
  · cases hn
  · cases hn
  · obtain ⟨-, hm⟩ := Ref.disputeReinstated.inj hm
    split at hm
    · cases hm
    · obtain rfl := Option.some.inj hm
      omega
  · have hto : reinstated L disputeId + (amount - reinstated L disputeId) = amount := by omega
    rw [hto]
    omega
  · rw [DisputeBooks.cash_sup_reinstated terms (Int.toNat_le_toNat hlt.le), hstripe, h.net]
    rfl
  · simp [DisputeBooks.owed, DisputeBooks.unposted, howed]

/-! ## The operations -/

/-- The references a dispute's journals are written under. -/
def Ref.aboutDispute (disputeId : Id) (r : Ref) : Prop := r.ofDispute disputeId = true ∨ ∃ s, r = .tipDispute disputeId s

/-- What a dispute's operation leaves of the ledger. -/
structure BooksDispute (disputeId : Id) (L L' : Ledger) : Prop where
  kept : WellKept L'
  grows : Grows (Ref.aboutDispute disputeId) L L'

theorem BooksDispute.trans {L'' : Ledger} (h : BooksDispute disputeId L L') (h' : BooksDispute disputeId L' L'') :
    BooksDispute disputeId L L'' := ⟨h'.kept, h.grows.trans h'.grows⟩

theorem BooksDispute.refl (hk : WellKept L) : BooksDispute disputeId L L := ⟨hk, Grows.refl _ _⟩

theorem booksDispute_write (hk : WellKept L) {p : Posting} (hn : net p.legs = 0) (hr : p.ref.ofDispute disputeId = true) :
    BooksDispute disputeId L (L.write p.ref p.info p.written) :=
  ⟨hk.write _ _ (by rw [net_written]; exact hn), grows_write (.inl hr) _ _ _⟩

theorem net_withdrawalPosting (payment : Payment) (subject : Subject) (disputeId : Id) (amount : Int) :
    net (withdrawalPosting payment subject disputeId amount).legs = 0 := by simp [withdrawalPosting]

theorem net_feeTakenPosting (payment : Payment) (subject : Subject) (disputeId : Id) (recorded fee : Int) :
    net (feeTakenPosting payment subject disputeId recorded fee).legs = 0 := by simp [feeTakenPosting]

theorem net_feeReturnedPosting (row : LedgerJournal) (disputeId : Id) (returned returnedNow : Int) :
    net (feeReturnedPosting row disputeId returned returnedNow).legs = 0 := by simp [feeReturnedPosting]

theorem net_lossPosting (db : Db) (payment : Payment) (subject : Subject) (disputeId : Id) (amount : Int) :
    net (lossPosting payment subject disputeId amount (refundLegs db payment amount "" false)).legs = 0 := by
  simp [lossPosting, net_refundLegs]

theorem net_reinstatedPosting (payment : Payment) (subject : Subject) (disputeId : Id) (first : Bool)
    (booked bookedNet amount net' : Int) :
    net (reinstatedPosting payment subject disputeId first booked bookedNet amount net').legs = 0 := by
  simp [reinstatedPosting]
  omega

/-- Pulling the funds and the fee never raises, and books both up to what is shown. -/
theorem postDispute_books {db : Db} (hk : WellKept db.ledger) (payment : Payment) (disputeId : Id) (amount fee : Int) :
    ∃ L, postDispute db payment disputeId amount fee = .ok (db.withLedger L) ∧ BooksDispute disputeId db.ledger L ∧
      ∀ terms, amount = DisputeTerms.amount terms → DisputeKept terms disputeId db.ledger →
        DisputeKept terms disputeId L ∧ disputeBooks L disputeId =
          disputeBooks db.ledger disputeId ⊔ { DisputeBooks.unposted with withdrawn := true, fee := fee.toNat } := by
  set subject := (settlement db payment).1 with hsubject
  set p := withdrawalPosting payment subject disputeId amount with hp
  set L := db.ledger.write p.ref p.info p.written with hL
  have hpost : post db.ledger p = .ok L := post_eq (net_withdrawalPosting _ _ _ _) _
  have hbooks : BooksDispute disputeId db.ledger L :=
    booksDispute_write hk (net_withdrawalPosting _ _ _ _) (decide_eq_true rfl)
  simp only [postDispute, ← hsubject, ← hp, hpost, bind, Except.bind]
  split
  · next hle =>
    refine ⟨L, rfl, hbooks, fun terms hamount h => ?_⟩
    subst hamount
    obtain ⟨hkept, he⟩ := h.withdraw payment subject
    refine ⟨hkept, he.trans ?_⟩
    have hfee : (disputeBooks L disputeId).fee = (disputeBooks db.ledger disputeId).fee := by
      rw [hL, hp, he]
      exact Nat.max_zero _
    have hmax : fee.toNat ≤ (disputeBooks db.ledger disputeId).fee := hfee ▸ Int.toNat_le_toNat hle
    ext <;> simp [DisputeBooks.unposted, hmax]
  · next hlt =>
    have hlt : recordedFee L disputeId < fee := by omega
    set p' := feeTakenPosting payment subject disputeId (recordedFee L disputeId) fee with hp'
    have hpost' : post L p' = .ok (L.write p'.ref p'.info p'.written) := post_eq (net_feeTakenPosting _ _ _ _ _) _
    refine ⟨_, by rw [hpost']; rfl, hbooks.trans (booksDispute_write hbooks.kept (net_feeTakenPosting _ _ _ _ _)
      (decide_eq_true rfl)), fun terms hamount h => ?_⟩
    subst hamount
    obtain ⟨hkept, he⟩ := h.withdraw payment subject
    obtain ⟨hkept', he'⟩ := hkept.takeFee payment subject hlt
    refine ⟨hkept', he'.trans ?_⟩
    rw [he]
    ext <;> simp [DisputeBooks.unposted]

/-- Turning a withdrawal around never raises. -/
theorem reverseWithdrawal_books (hk : WellKept L) (payment : Payment) (disputeId : Id) :
    ∃ L', reverseWithdrawal L payment disputeId = .ok L' ∧ BooksDispute disputeId L L' ∧
      ∀ terms, DisputeKept terms disputeId L → L.has (.dispute disputeId) = true →
        DisputeKept terms disputeId L' ∧ disputeBooks L' disputeId =
          disputeBooks L disputeId ⊔ { DisputeBooks.unposted with won := true } := by
  unfold reverseWithdrawal
  split
  · next j hf =>
    obtain ⟨hj, href⟩ := Book.find_mem hf
    have hnet : net (reversal j (.disputeWon disputeId) .dispute (some (.payment payment.id)) {}).legs = 0 := by
      rw [reversal, net_negate, hk.balanced j hj]
      rfl
    exact ⟨_, post_eq hnet L, booksDispute_write hk hnet (decide_eq_true rfl), fun terms h _ => h.win hj href _⟩
  · next hf =>
    refine ⟨L, rfl, BooksDispute.refl hk, fun terms _ hhas => ?_⟩
    rw [(L.find_eq_none_iff _).1 hf] at hhas
    cases hhas

/-- Closing a won dispute never raises, and returns the fee up to what is shown. -/
theorem closeDispute_books {db : Db} (hk : WellKept db.ledger) (payment : Payment) (disputeId : Id) (returnedNow : Int) :
    ∃ L, closeDispute db payment disputeId returnedNow = .ok (db.withLedger L) ∧ BooksDispute disputeId db.ledger L ∧
      ∀ terms, DisputeKept terms disputeId db.ledger → db.ledger.has (.dispute disputeId) = true →
        (0 < returnedNow → 0 < recordedFee db.ledger disputeId) →
        DisputeKept terms disputeId L ∧ disputeBooks L disputeId = disputeBooks db.ledger disputeId ⊔
          { DisputeBooks.unposted with won := true, feeReturned := returnedNow.toNat } := by
  obtain ⟨L, hrev, hbooks, hwin⟩ := reverseWithdrawal_books hk payment disputeId
  simp only [closeDispute, hrev, bind, Except.bind]
  have hret := returnedFee_nonneg L disputeId
  -- the fee is up to what is shown, or there is none to return
  have hdone : ∀ terms, DisputeKept terms disputeId db.ledger → db.ledger.has (.dispute disputeId) = true →
      returnedNow ≤ returnedFee L disputeId →
      DisputeKept terms disputeId L ∧ disputeBooks L disputeId = disputeBooks db.ledger disputeId ⊔
        { DisputeBooks.unposted with won := true, feeReturned := returnedNow.toNat } := by
    intro terms h hhas hle
    obtain ⟨hkept, he⟩ := hwin terms h hhas
    refine ⟨hkept, he.trans ?_⟩
    have hfee : (disputeBooks L disputeId).feeReturned = (disputeBooks db.ledger disputeId).feeReturned := by
      rw [he]
      exact Nat.max_zero _
    have hmax : returnedNow.toNat ≤ (disputeBooks db.ledger disputeId).feeReturned := hfee ▸ Int.toNat_le_toNat hle
    ext <;> simp [DisputeBooks.unposted, hmax]
  split
  · next hf =>
    refine ⟨L, rfl, hbooks, fun terms h hhas hfees => hdone terms h hhas ?_⟩
    have hnone : recordedFee L disputeId = 0 := by
      refine Book.sum_eq_zero fun j hj e _ hp => ?_
      have hno := List.find?_eq_none.1 hf j hj
      simp only [Bool.and_eq_true] at hp
      exact absurd hp.1 hno
    have hsame : (disputeBooks L disputeId).fee = (disputeBooks db.ledger disputeId).fee := by
      rw [(hwin terms h hhas).2]
      exact Nat.max_zero _
    have hsame : (recordedFee L disputeId).toNat = (recordedFee db.ledger disputeId).toNat := hsame
    omega
  · next row hf =>
    split
    · next hle => exact ⟨L, rfl, hbooks, fun terms h hhas _ => hdone terms h hhas hle⟩
    · next hlt =>
      have hlt : returnedFee L disputeId < returnedNow := by omega
      set p := feeReturnedPosting row disputeId (returnedFee L disputeId) returnedNow with hp
      have hpost : post L p = .ok (L.write p.ref p.info p.written) := post_eq (net_feeReturnedPosting _ _ _ _) _
      refine ⟨_, by rw [hpost]; rfl, hbooks.trans (booksDispute_write hbooks.kept (net_feeReturnedPosting _ _ _ _)
        (decide_eq_true rfl)), fun terms h hhas _ => ?_⟩
      obtain ⟨hkept, he⟩ := hwin terms h hhas
      obtain ⟨hkept', he'⟩ := hkept.returnFee row hlt
      refine ⟨hkept', he'.trans ?_⟩
      rw [he]
      ext <;> simp [DisputeBooks.unposted]

theorem Ref.ofDispute_of_fee {r : Ref} (h : r.isDisputeFee disputeId = true) : r.ofDispute disputeId = true := by
  cases r <;> first | exact h | cases h

theorem Ref.ofDispute_of_reinstated {r : Ref} (h : r.isReinstated disputeId = true) : r.ofDispute disputeId = true := by
  cases r <;> first | exact h | cases h

/-- A dispute nothing was posted of. -/
theorem disputeKept_unposted (terms : DisputeTerms) (h : ∀ r : Ref, r.ofDispute disputeId = true → L.has r = false) :
    DisputeKept terms disputeId L ∧ disputeBooks L disputeId = DisputeBooks.unposted := by
  have hsum : ∀ (R : Ref → Bool), (∀ r, R r = true → r.ofDispute disputeId = true) → ∀ c : Leg → Bool,
      L.sum (fun j e => R j.ref && c e) = 0 := by
    intro R hR c
    refine Book.sum_eq_zero_of_no_journal fun j hj e => ?_
    cases hr : R j.ref with
    | false => rfl
    | true => exact absurd rfl ((L.has_false_iff _).1 (h _ (hR _ hr)) j hj)
  have hfee : recordedFee L disputeId = 0 := hsum _ (fun _ => Ref.ofDispute_of_fee) _
  have hret : returnedFee L disputeId = 0 := neg_eq_zero.2 (hsum _ (fun _ => Ref.ofDispute_of_fee) _)
  have hback : reinstated L disputeId = 0 := neg_eq_zero.2 (hsum _ (fun _ => Ref.ofDispute_of_reinstated) _)
  have hnet : reinstatedNet L disputeId = 0 := hsum _ (fun _ => Ref.ofDispute_of_reinstated) _
  have hon : ∀ category, disputeOn L disputeId category = 0 := fun category => hsum _ (fun _ => id) _
  have hbooks : disputeBooks L disputeId = DisputeBooks.unposted := by
    rw [disputeBooks, hfee, hret, hback, h (.dispute disputeId) (decide_eq_true rfl),
      h (.disputeWon disputeId) (decide_eq_true rfl), h (.disputeLost disputeId) (decide_eq_true rfl)]
    rfl
  refine ⟨⟨fun j hj href => ?_, fun n hn => ?_, fun n hn => ?_, fun m hm => ?_, hback.ge, ?_, ?_, ?_⟩, hbooks⟩
  · exact absurd href ((L.has_false_iff _).1 (h (.dispute disputeId) (decide_eq_true rfl)) j hj)
  · rw [h (.disputeFee disputeId n) (decide_eq_true rfl)] at hn
    cases hn
  · rw [h (.disputeFeeWon disputeId n) (decide_eq_true rfl)] at hn
    cases hn
  · rw [h (.disputeReinstated disputeId (some m)) (decide_eq_true rfl)] at hm
    cases hm
  · rw [hnet, hback]
    exact terms.net_zero.symm
  · rw [hon, hbooks]
    simp [DisputeBooks.cash, DisputeBooks.unposted, terms.net_zero]
  · rw [hon, hbooks]
    simp [DisputeBooks.owed, DisputeBooks.unposted]

section
variable {P : Ref → Prop} (hg : Grows P L L') (hP : ∀ r, P r → r.ofDispute disputeId = false)
include hg hP

theorem sum_of_others {R : Ref → Bool} (hR : ∀ r, R r = true → r.ofDispute disputeId = true) (c : Leg → Bool) :
    L'.sum (fun j e => R j.ref && c e) = L.sum fun j e => R j.ref && c e := by
  refine hg.sum_eq fun j hj e => ?_
  rw [Bool.and_eq_false_iff]
  left
  rw [Bool.eq_false_iff]
  intro hr
  have hout := hP _ hj
  rw [hR _ hr] at hout
  cases hout

theorem has_of_others {r : Ref} (hr : r.ofDispute disputeId = true) : L'.has r = L.has r := by
  refine hg.has_eq fun hp => ?_
  have hout := hP _ hp
  rw [hr] at hout
  cases hout

theorem recordedFee_of_others : recordedFee L' disputeId = recordedFee L disputeId :=
  sum_of_others hg hP (fun _ => Ref.ofDispute_of_fee) _

theorem returnedFee_of_others : returnedFee L' disputeId = returnedFee L disputeId :=
  congrArg Neg.neg (sum_of_others hg hP (fun _ => Ref.ofDispute_of_fee) _)

theorem reinstated_of_others : reinstated L' disputeId = reinstated L disputeId :=
  congrArg Neg.neg (sum_of_others hg hP (fun _ => Ref.ofDispute_of_reinstated) _)

theorem reinstatedNet_of_others : reinstatedNet L' disputeId = reinstatedNet L disputeId :=
  sum_of_others hg hP (fun _ => Ref.ofDispute_of_reinstated) _

theorem disputeOn_of_others (category : Category) : disputeOn L' disputeId category = disputeOn L disputeId category :=
  sum_of_others hg hP (fun _ => id) _

/-- Journals of other references leave a dispute's books alone. -/
theorem disputeBooks_of_others : disputeBooks L' disputeId = disputeBooks L disputeId := by
  unfold disputeBooks
  rw [has_of_others hg hP (r := .dispute disputeId) (decide_eq_true rfl),
    has_of_others hg hP (r := .disputeWon disputeId) (decide_eq_true rfl),
    has_of_others hg hP (r := .disputeLost disputeId) (decide_eq_true rfl), recordedFee_of_others hg hP,
    returnedFee_of_others hg hP, reinstated_of_others hg hP]

theorem DisputeKept.of_others (h : DisputeKept terms disputeId L) : DisputeKept terms disputeId L' := by
  refine ⟨fun j hj href => ?_, fun n hn => ?_, fun n hn => ?_, fun m hm => ?_, ?_, ?_, ?_, ?_⟩
  · rcases hg.mem_or hj with hj | hj
    · exact h.withdrawal j hj href
    · have hout := hP _ hj
      rw [href] at hout
      exact absurd hout (by simp [Ref.ofDispute])
  · rw [has_of_others hg hP (r := .disputeFee disputeId n) (decide_eq_true rfl)] at hn
    rw [recordedFee_of_others hg hP]
    exact h.fees n hn
  · rw [has_of_others hg hP (r := .disputeFeeWon disputeId n) (decide_eq_true rfl)] at hn
    rw [returnedFee_of_others hg hP]
    exact h.returns n hn
  · rw [has_of_others hg hP (r := .disputeReinstated disputeId (some m)) (decide_eq_true rfl)] at hm
    rw [reinstated_of_others hg hP]
    exact h.reinstatements m hm
  · rw [reinstated_of_others hg hP]
    exact h.nonneg
  · rw [reinstatedNet_of_others hg hP, reinstated_of_others hg hP]
    exact h.net
  · rw [disputeOn_of_others hg hP, disputeBooks_of_others hg hP]
    exact h.cash
  · rw [disputeOn_of_others hg hP, disputeBooks_of_others hg hP]
    exact h.owed

end

/-- Losing a dispute never raises. -/
theorem loseDispute_books {db : Db} (hk : WellKept db.ledger) (payment : Payment) (disputeId : Id) (amount : Int) :
    ∃ L, loseDispute db payment disputeId amount = .ok (db.withLedger L) ∧ BooksDispute disputeId db.ledger L ∧
      ∀ terms, amount = DisputeTerms.amount terms → DisputeKept terms disputeId db.ledger →
        db.ledger.has (.dispute disputeId) = true →
        DisputeKept terms disputeId L ∧ disputeBooks L disputeId =
          disputeBooks db.ledger disputeId ⊔ { DisputeBooks.unposted with lost := true } := by
  unfold loseDispute
  split
  swap
  · next hno => exact ⟨db.ledger, rfl, BooksDispute.refl hk, fun _ _ _ hhas => absurd hhas hno⟩
  · set legs := refundLegs db payment amount "" false with hlegs
    set subject := (settlement db payment).1 with hsubject
    set p := lossPosting payment subject disputeId amount legs with hp
    set L := db.ledger.write p.ref p.info p.written with hL
    have hnet : net p.legs = 0 := net_lossPosting _ _ _ _ _
    have hbooks : BooksDispute disputeId db.ledger L := booksDispute_write hk hnet (decide_eq_true rfl)
    have hlose : ∀ terms, amount = DisputeTerms.amount terms → DisputeKept terms disputeId db.ledger →
        DisputeKept terms disputeId L ∧ disputeBooks L disputeId =
          disputeBooks db.ledger disputeId ⊔ { DisputeBooks.unposted with lost := true } := by
      intro terms hamount h
      subst hamount
      exact h.lose db payment subject
    have hfirst : post db.ledger p = .ok L := post_eq hnet _
    simp only [← hp, hfirst, bind, Except.bind]
    split
    · obtain ⟨L', hpost⟩ : ∃ L', postTips L payment subject (.tipDispute disputeId) (-1) payment.id
          (tipsBack payment (tipOf legs)) = .ok L' := ⟨_, postTips_eq _ _ _ _ _ _ _⟩
      have hg : Grows (fun r => ∃ s, r = .tipDispute disputeId s) L L' := by
        rw [postTips_eq] at hpost
        cases hpost
        exact grows_writeTips _ _ _ _ _ _ _
      refine ⟨L', by rw [hpost]; rfl, hbooks.trans ⟨wellKept_postTips hbooks.kept hpost, hg.mono fun r => .inr⟩,
        fun terms hamount h _ => ?_⟩
      obtain ⟨hkept, he⟩ := hlose terms hamount h
      have hother : ∀ r, (∃ s, r = Ref.tipDispute disputeId s) → r.ofDispute disputeId = false := by
        rintro r ⟨s, rfl⟩
        rfl
      exact ⟨hkept.of_others hg hother, (disputeBooks_of_others hg hother).trans he⟩
    · exact ⟨L, rfl, hbooks, fun terms hamount h _ => hlose terms hamount h⟩

/-- Handing funds back never raises, and books them up to what is shown. -/
theorem reinstateDispute_books {db : Db} (hk : WellKept db.ledger) (payment : Payment) (disputeId : Id) (amount net' : Int) :
    ∃ L, reinstateDispute db payment disputeId amount net' = .ok (db.withLedger L) ∧
      BooksDispute disputeId db.ledger L ∧
      ∀ terms, net' = DisputeTerms.net terms amount.toNat → DisputeKept terms disputeId db.ledger →
        db.ledger.has (.disputeLost disputeId) = true →
        DisputeKept terms disputeId L ∧ disputeBooks L disputeId =
          disputeBooks db.ledger disputeId ⊔ { DisputeBooks.unposted with reinstated := amount.toNat } := by
  have hdone : ∀ terms, DisputeKept terms disputeId db.ledger → amount ≤ reinstated db.ledger disputeId →
      DisputeKept terms disputeId db.ledger ∧ disputeBooks db.ledger disputeId =
        disputeBooks db.ledger disputeId ⊔ { DisputeBooks.unposted with reinstated := amount.toNat } := by
    intro terms h hle
    have hmax : amount.toNat ≤ (disputeBooks db.ledger disputeId).reinstated := Int.toNat_le_toNat hle
    refine ⟨h, ?_⟩
    ext <;> simp [DisputeBooks.unposted, hmax]
  unfold reinstateDispute
  split
  · next hno =>
    refine ⟨db.ledger, rfl, BooksDispute.refl hk, fun terms _ h hhas => hdone terms h ?_⟩
    rcases hno with hno | hno
    · exact hno.trans h.nonneg
    · rw [hhas] at hno
      cases hno
  · dsimp only
    split
    · next hle => exact ⟨db.ledger, rfl, BooksDispute.refl hk, fun terms _ h _ => hdone terms h hle⟩
    · next hlt =>
      have hlt : reinstated db.ledger disputeId < amount := by omega
      set p := reinstatedPosting payment (settlement db payment).1 disputeId
        (!db.ledger.any fun j => j.ref.isReinstated disputeId) (reinstated db.ledger disputeId)
        (reinstatedNet db.ledger disputeId) amount net' with hp
      have hpost : post db.ledger p = .ok (db.ledger.write p.ref p.info p.written) :=
        post_eq (net_reinstatedPosting _ _ _ _ _ _ _ _) _
      refine ⟨_, by rw [hpost]; rfl, booksDispute_write hk (net_reinstatedPosting _ _ _ _ _ _ _ _) (decide_eq_true rfl),
        fun terms hnet h _ => ?_⟩
      subst hnet
      exact h.reinstate payment _ hlt

end

end ClientBridge
