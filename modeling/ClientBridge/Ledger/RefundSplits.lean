import ClientBridge.Ledger.Refunds

/-!
# The split of the next refund

A payment is refunded in parts, and each refund splits itself by what the live ones unwound
so far.  `RefundedInv` says what the live refunds' journals add up to, and `refundSplit` what
the legs of the next one do, as long as the rounding that lands on the credit of a package
fits in that credit (`FitsNow`).
-/

namespace ClientBridge

open Bookkeeping Apportion Runs

/-! ## What refunds unwound -/

/-- What a refund's journal put on the selected accounts. -/
def returnedOn (L : Ledger) (refundId : Id) (r : AccountKey → Bool) : Int :=
  L.sum fun j e =>
    (decide (j.info.event = .refund) && decide (j.info.source = some (.payment refundId))) && r e.key

def onKey (key : AccountKey) (k : AccountKey) : Bool := decide (k = key)

def onCategory (category : Category) (k : AccountKey) : Bool := decide (k.category = category)

def onCash (k : AccountKey) : Bool := k.category.isCash

/-- What the live refunds of a payment put on the selected accounts. -/
def unwoundOn (db : Db) (original : Payment) (r : AccountKey → Bool) : Int :=
  ((db.liveRefunds original.id).map fun q => returnedOn db.ledger q.id r).sum

def liveTotal (db : Db) (original : Payment) : Int :=
  ((db.liveRefunds original.id).map (·.amountCents)).sum

/-- The refunds of several payments together are the refunds one by one. -/
theorem sum_fromPayments (L : Ledger) {ids : List Id} (h : ids.Nodup) (r : AccountKey → Bool) :
    L.sum (fun j e => (decide (j.info.event = .refund) && fromPayments ids j) && r e.key) =
      (ids.map fun id => returnedOn L id r).sum := by
  induction ids with
  | nil =>
    refine Book.sum_eq_zero_of_no_journal fun j _ e => ?_
    unfold fromPayments
    split <;> simp
  | cons id ids ih =>
    obtain ⟨hn, hids⟩ := List.nodup_cons.1 h
    have hsplit : ∀ j : LedgerJournal, ∀ e : Leg,
        ((decide (j.info.event = .refund) && fromPayments (id :: ids) j) && r e.key) =
          (((decide (j.info.event = .refund) && decide (j.info.source = some (.payment id))) && r e.key) ||
            ((decide (j.info.event = .refund) && fromPayments ids j) && r e.key)) := by
      intro j e
      unfold fromPayments
      split
      · next id' hs =>
        rw [hs]
        by_cases hid : id' = id
        · simp [hid, hn]
        · simp [hid]
      · next hs =>
        have hne : j.info.source ≠ some (.payment id) := hs id
        simp [hne]
    rw [Book.sum_congr fun j _ e _ => hsplit j e, Book.sum_or_of_disjoint _ _ _ ?_, ih hids,
      List.map_cons, List.sum_cons]
    · rfl
    · rintro j _ e _ ⟨h1, h2⟩
      simp only [Bool.and_eq_true, decide_eq_true_eq, fromPayments] at h1 h2
      rw [h1.1.2] at h2
      exact hn (of_decide_eq_true h2.1.2)

/-- A journal that is no refund, or the refund of another, leaves a refund's part as it is. -/
theorem returnedOn_of_extends {P : LedgerJournal → Prop} {L L' : Ledger} (h : Extends P L L') {id : Id}
    (hP : ∀ j, P j → j.info.event = .refund → j.info.source ≠ some (.payment id)) (r : AccountKey → Bool) :
    returnedOn L' id r = returnedOn L id r := by
  refine h.sum_eq fun j hj e _ => ?_
  by_cases he : j.info.event = .refund
  · simp [hP j hj he]
  · simp [he]

/-! ## Steps -/

/-- An id no row has, and no journal of a refund. -/
structure FreshRefund (db : Db) (id : Id) : Prop where
  row : ∀ q ∈ db.payments, q.id ≠ id
  refs : ∀ r, isRefundRef id r → db.ledger.has r = false
  source : ∀ j ∈ db.ledger, j.info.source ≠ some (.payment id)

/-- A package or gift card the payment bought still holds what its refunds left of it. -/
def Unspent (db : Db) (original : Payment) : Prop :=
  ∀ x ∈ owed (credits db.ledger original), x.1.owner.holds = true →
    -balance db.ledger x.1 = x.2 - unwoundOn db original (onKey x.1)

inductive RefundAction where
  | refund (row : Payment)
  | fail (row : Payment)

/-- A refund of the payment that succeeded, within what is left of it, or a live refund that
Stripe failed. -/
inductive RefundStep (original : Payment) (db : Db) : RefundAction → Db → Prop
  | refund {row db'} (hid : FreshRefund db row.id) (hk : row.kind = .refund)
      (hparent : row.parentPaymentId = some original.id) (hinvoice : row.invoiceId = original.invoiceId)
      (hs : row.status = .succeeded) (hpos : 0 < row.amountCents)
      (hroom : liveTotal db original + row.amountCents ≤ original.amountCents)
      (hunspent : Unspent db original)
      (h : postRefund (db.addPayment row) row original false = .ok db') :
      RefundStep original db (.refund row) db'
  | fail {row db'} (hlive : row ∈ db.liveRefunds original.id)
      (h : reverseRefund (db.setStatus row.id .failed) row original = .ok db') :
      RefundStep original db (.fail row) db'

/-- The tip a payment's refunds have returned once `done` cents of it went back. -/
def tipDone (original : Payment) (done : Int) : Int := original.tip.cents * done / original.amountCents

/-- What the next refund of `returned` cents unwinds of the credits. -/
def unwindsNow (db : Db) (original : Payment) (returned : Int) : Int :=
  returned - (tipDone original (liveTotal db original + returned) - unwoundOn db original (onCategory .staffCost))

/-- The rounding that lands on the largest credit fits, for the next refund. -/
def FitsNow (db : Db) (original : Payment) (row : Payment) : Prop :=
  RoundingFits (owed (credits db.ledger original)) (fun key => unwoundOn db original (onKey key))
    (-net (credits db.ledger original)) (unwindsNow db original row.amountCents)

def FittingStep (original : Payment) (db : Db) (a : RefundAction) (db' : Db) : Prop :=
  RefundStep original db a db' ∧ ∀ row, a = .refund row → FitsNow db original row

/-- Only a package or gift card can hold too little. -/
theorem fitsNow_of_not_holds {original : Payment} {db : Db}
    (h : ∀ x ∈ owed (credits db.ledger original), x.1.owner.holds = false) (row : Payment) :
    FitsNow db original row := by
  intro x hx hholds
  rw [h x (List.mem_of_getElem? hx)] at hholds
  cases hholds

/-- Rounding always fits where there is one other credit: a package under one tax code. -/
theorem roundingFits_of_two {x y : AccountKey × Int} {prior : AccountKey → Int} {returned : Int}
    (hx : 0 ≤ x.2) (hy : 0 ≤ y.2) (hbase : 0 < x.2 + y.2)
    (hdone : prior x.1 + prior y.1 + returned ≤ x.2 + y.2) :
    RoundingFits [x, y] prior (x.2 + y.2) returned := by
  have hsum : ([x, y].map fun x => prior x.1).sum + returned = prior x.1 + prior y.1 + returned := by
    simp only [List.map_cons, List.map_nil, List.sum_cons, List.sum_nil, Int.add_zero]
  have hx' := rest_le hx hbase hdone
  have hy' := @rest_le y.2 x.2 (prior x.1 + prior y.1 + returned) hy (by omega) (by omega)
  rw [Int.add_comm y.2 x.2] at hy'
  intro z hz _
  refine le_max_of_le_left ?_
  unfold largestDone
  rw [hsum]
  have hmem := List.mem_of_getElem? hz
  simp only [List.mem_cons, List.not_mem_nil, or_false] at hmem
  simp only [List.map_cons, List.map_nil, List.sum_cons, List.sum_nil]
  rcases hmem with rfl | rfl <;> omega

/-- A settled payment that was never refunded nor lost, whose journal credits its amount less
its tip. -/
structure Unrefunded (original : Payment) (db : Db) : Prop where
  base : -net (credits db.ledger original) = original.amountCents - original.tip.cents
  rows : ∀ q ∈ db.payments, q.kind = .refund → q.parentPaymentId ≠ some original.id ∧
    (original.invoiceId.isSome → q.invoiceId ≠ original.invoiceId)
  kept : lostPayments db original = []

/-- A refund's journal balances, pays out its amount and books no loss. -/
def JournalOf (L : Ledger) (q : Payment) : Prop :=
  ∃ j ∈ L, j.ref = .refund q.id ∧ net j.legs = 0 ∧ keyed onCash j.legs = -q.amountCents ∧
    ∀ e ∈ j.legs, e.key.category ≠ .loss

/-- Every refund has its journal, and live refunds that make up the payment unwound every credit
and the tip. -/
structure RefundsExact (original : Payment) (db : Db) : Prop where
  journals : ∀ q ∈ db.payments, q.kind = .refund → q.parentPaymentId = some original.id →
    JournalOf db.ledger q
  whole : liveTotal db original = original.amountCents →
    (∀ x ∈ owed (credits db.ledger original), unwoundOn db original (onKey x.1) = x.2) ∧
      unwoundOn db original (onCategory .staffCost) = original.tip.cents

/-! ## The invariant -/

/-- What one refund's journal holds. -/
structure RefundParts (L : Ledger) (original : Payment) (keys : List AccountKey) (q : Payment) : Prop where
  cash : returnedOn L q.id onCash = -q.amountCents
  parts : (keys.map fun key => returnedOn L q.id (onKey key)).sum +
    returnedOn L q.id (onCategory .staffCost) = q.amountCents
  tipless : original.tip.cents = 0 → returnedOn L q.id (onCategory .staffCost) = 0

structure RefundedInv (original : Payment) (basis : List Leg) (db : Db) : Prop where
  basis_eq : credits db.ledger original = basis
  kept : lostPayments db original = []
  invoice : ∀ q ∈ db.payments, q.kind = .refund →
    (q.parentPaymentId = some original.id → q.invoiceId = original.invoiceId) ∧
    (original.invoiceId.isSome → q.invoiceId = original.invoiceId → q.parentPaymentId = some original.id)
  nodup : ((db.liveRefunds original.id).map (·.id)).Nodup
  journals : ∀ q ∈ db.payments, q.kind = .refund → q.parentPaymentId = some original.id →
    JournalOf db.ledger q
  pos : ∀ q ∈ db.liveRefunds original.id, 0 < q.amountCents
  parts : ∀ q ∈ db.liveRefunds original.id, RefundParts db.ledger original (Dict.keys (owed basis)) q
  room : liveTotal db original ≤ original.amountCents
  whole : liveTotal db original = original.amountCents →
    (∀ x ∈ owed basis, unwoundOn db original (onKey x.1) = x.2) ∧
      unwoundOn db original (onCategory .staffCost) = original.tip.cents

section
variable {original : Payment} {basis : List Leg} {db : Db}

theorem mem_liveRefunds {q : Payment} : q ∈ db.liveRefunds original.id ↔
    q ∈ db.payments ∧ q.kind = .refund ∧ q.parentPaymentId = some original.id ∧ q.status = .succeeded := by
  simp [Db.liveRefunds]

theorem sum_swap {α β : Type} (xs : List α) (ys : List β) (f : α → β → Int) :
    (xs.map fun x => (ys.map (f x)).sum).sum = (ys.map fun y => (xs.map fun x => f x y).sum).sum := by
  induction xs with
  | nil => simp
  | cons x xs ih => simp only [List.map_cons, List.sum_cons, ih, List.sum_map_add]

/-- On the credited accounts the live refunds unwound all they returned but tips. -/
theorem RefundedInv.unwound (h : RefundedInv original basis db) :
    ((owed basis).map fun x => unwoundOn db original (onKey x.1)).sum =
      liveTotal db original - unwoundOn db original (onCategory .staffCost) := by
  refine eq_sub_of_add_eq ?_
  unfold unwoundOn liveTotal
  rw [sum_swap, ← List.sum_map_add]
  refine congrArg _ (List.map_congr_left fun q hq => ?_)
  have hp := (h.parts q hq).parts
  rw [Dict.keys, List.map_map] at hp
  exact hp

theorem RefundedInv.liveTotal_nonneg (h : RefundedInv original basis db) : 0 ≤ liveTotal db original := by
  refine List.sum_nonneg fun x hx => ?_
  obtain ⟨q, hq, rfl⟩ := List.mem_map.1 hx
  exact (h.pos q hq).le

/-- The tip goes back no faster than the rest of the payment is left. -/
theorem tipDone_ge {done : Int} (hle : done ≤ original.amountCents) (h0 : 0 < done) :
    done - tipDone original done ≤ original.amountCents - original.tip.cents := by
  have ht := original.tip.cents_nonneg
  have htA := original.tip_le
  have hA : 0 < original.amountCents := by omega
  have hdiv : original.tip.cents - (original.amountCents - done) ≤ tipDone original done := by
    refine Int.le_ediv_of_mul_le hA ?_
    have hm := Int.mul_le_mul_of_nonneg_right htA (sub_nonneg.2 hle)
    nlinarith
  omega

theorem RefundedInv.unwound_le (h : RefundedInv original basis db) {returned : Int} (hpos : 0 < returned)
    (hroom : liveTotal db original + returned ≤ original.amountCents) :
    ((owed basis).map fun x => unwoundOn db original (onKey x.1)).sum + unwindsNow db original returned ≤
      original.amountCents - original.tip.cents := by
  have hlive := h.liveTotal_nonneg
  have ht := tipDone_ge hroom (by omega)
  rw [h.unwound]
  unfold unwindsNow
  omega

section
variable {row : Payment} (hid : FreshRefund db row.id) (hk : row.kind = .refund)
  (hparent : row.parentPaymentId = some original.id) (hs : row.status = .succeeded)
include hk hparent hs

theorem liveRefunds_addPayment :
    (db.addPayment row).liveRefunds original.id = db.liveRefunds original.id ++ [row] := by
  simp [Db.liveRefunds, Db.addPayment, List.filter_append, hk, hparent, hs]

include hid

theorem earlierRefunds_addPayment :
    earlierRefunds (db.addPayment row) original row.id = (db.liveRefunds original.id).map (·.id) := by
  have hold : (db.liveRefunds original.id).filter (fun q => decide (q.id ≠ row.id)) =
      db.liveRefunds original.id := by
    rw [List.filter_eq_self]
    intro q hq
    simpa using hid.row q (mem_liveRefunds.1 hq).1
  rw [earlierRefunds, liveRefunds_addPayment hk hparent hs, List.filter_append, hold]
  simp

omit hk hparent hs in
/-- Every refund that unwinds the same journal is a refund of the payment. -/
theorem unwindingRefunds_addPayment (h : RefundedInv original basis db) :
    unwindingRefunds (db.addPayment row) original row.id = (db.liveRefunds original.id).map (·.id) := by
  have hold : db.payments.filter (fun q =>
      decide (q.kind = .refund ∧ q.status = .succeeded ∧ q.id ≠ row.id) &&
        if original.invoiceId.isSome then decide (q.invoiceId = original.invoiceId)
        else decide (q.parentPaymentId = some original.id)) = db.liveRefunds original.id := by
    unfold Db.liveRefunds
    refine List.filter_congr fun q hq => ?_
    have hne := hid.row q hq
    by_cases hqk : q.kind = .refund
    · obtain ⟨h1, h2⟩ := h.invoice q hq hqk
      by_cases hi : original.invoiceId.isSome
      · have hiff : q.invoiceId = original.invoiceId ↔ q.parentPaymentId = some original.id := ⟨h2 hi, h1⟩
        simp [hqk, hi, hne, hiff, and_comm]
      · simp [hqk, hi, hne, and_comm]
    · simp [hqk]
  have hnew : List.filter (fun q =>
      decide (q.kind = .refund ∧ q.status = .succeeded ∧ q.id ≠ row.id) &&
        if original.invoiceId.isSome then decide (q.invoiceId = original.invoiceId)
        else decide (q.parentPaymentId = some original.id)) [row] = [] := by
    simp
  rw [unwindingRefunds, Db.payments_addPayment, List.filter_append, hold, hnew, List.append_nil]

omit hparent hs in
theorem priorUnwound_eq (h : RefundedInv original basis db) (key : AccountKey) :
    priorUnwound (db.addPayment row) original row.id key = unwoundOn db original (onKey key) := by
  have hlost : lostPayments (db.addPayment row) original = [] := by
    have hrow : ¬(decide (row.kind ≠ .refund) = true) := by simp [hk]
    have hkept := h.kept
    simp only [lostPayments, Db.payments_addPayment, Db.ledger_addPayment, List.filter_append,
      List.map_append, List.append_eq_nil_iff] at hkept ⊢
    exact ⟨hkept, by simp [hk]⟩
  have hnone : ∀ j : LedgerJournal, fromPayments [] j = false := by
    intro j
    unfold fromPayments
    split <;> simp
  have hsum := sum_fromPayments db.ledger h.nodup (onKey key)
  rw [List.map_map] at hsum
  refine Eq.trans ?_ hsum
  unfold priorUnwound unwinds
  rw [unwindingRefunds_addPayment hid h, hlost]
  exact Book.sum_congr fun j _ e _ => by simp [hnone, onKey]

/-- A refund returns the tip up to what it and the live refunds make of it. -/
theorem tipReturned_eq (h : RefundedInv original basis db)
    (hroom : liveTotal db original + row.amountCents ≤ original.amountCents) :
    tipReturned (db.addPayment row) original row.amountCents row.id =
      tipDone original (liveTotal db original + row.amountCents) -
        unwoundOn db original (onCategory .staffCost) := by
  have ht := original.tip.cents_nonneg
  have hcash := sum_fromPayments db.ledger h.nodup onCash
  have htip := sum_fromPayments db.ledger h.nodup (onCategory .staffCost)
  rw [List.map_map] at hcash htip
  have htotal : ((db.liveRefunds original.id).map fun q => returnedOn db.ledger q.id onCash).sum =
      -liveTotal db original := by
    rw [List.map_congr_left fun q hq => (h.parts q hq).cash, liveTotal, List.sum_neg, List.map_map]
    rfl
  unfold tipReturned
  split
  · next h0 =>
    have hz : original.tip.cents = 0 := by omega
    have hn : unwoundOn db original (onCategory .staffCost) = 0 := by
      rw [unwoundOn, List.map_congr_left fun q hq => (h.parts q hq).tipless hz]
      simp
    simp [tipDone, hz, hn]
  · simp only [earlierRefunds_addPayment hid hk hparent hs]
    have hc : -(db.addPayment row).ledger.sum (fun j e => (decide (j.info.event = .refund) &&
        fromPayments ((db.liveRefunds original.id).map (·.id)) j) && e.key.category.isCash) =
          liveTotal db original := by
      have he := hcash.trans htotal
      exact (congrArg Neg.neg he).trans (Int.neg_neg _)
    have hp : (db.addPayment row).ledger.sum (fun j e => (decide (j.info.event = .refund) &&
        fromPayments ((db.liveRefunds original.id).map (·.id)) j) && decide (e.key.category = .staffCost)) =
          unwoundOn db original (onCategory .staffCost) := htip
    rw [hc, hp, min_eq_right hroom]
    rfl

/-- What the legs of the next refund's journal add up to. -/
structure RefundSplit (db : Db) (original : Payment) (basis : List Leg) (returned : Int) (legs : List Leg) :
    Prop where
  cash : keyed onCash legs = -returned
  parts : ((Dict.keys (owed basis)).map fun key => keyed (onKey key) legs).sum +
    keyed (onCategory .staffCost) legs = returned
  tip : keyed (onCategory .staffCost) legs = tipDone original (liveTotal db original + returned) -
    unwoundOn db original (onCategory .staffCost)
  lossless : ∀ e ∈ legs, e.key.category ≠ .loss
  whole : liveTotal db original + returned = original.amountCents → ∀ x ∈ owed basis,
    unwoundOn db original (onKey x.1) + keyed (onKey x.1) legs = x.2

omit hid hk hparent hs in
theorem keyed_refund (r : AccountKey → Bool) (cash : Int) (zs : List Leg) (tip : Int) :
    keyed r (leg .business (cashCategory original) cash :: (zs ++ tipLegs tip)) =
      (if r ⟨.business, cashCategory original, .plain⟩ then cash else 0) + keyed r zs +
        if r ⟨.business, .staffCost, .plain⟩ then tip else 0 := by
  have ht : keyed r (tipLegs tip) = if r ⟨.business, .staffCost, .plain⟩ then tip else 0 := by
    unfold tipLegs
    split
    · next h => simp [h]
    · rw [keyed_cons, keyed_nil, Int.add_zero]
      rfl
  rw [keyed_cons, keyed_append, ht, leg_key, leg_cents]
  omega

omit hid hk hparent hs in
theorem cashCategory_isCash (p : Payment) : (cashCategory p).isCash = true := by
  unfold cashCategory
  split <;> rfl

omit hid hk hparent hs in
theorem keyed_accounts {d : List (AccountKey × Int)} (hd : (Dict.keys d).Nodup) (f : AccountKey × Int → Int)
    {x : AccountKey × Int} (hx : x ∈ d) :
    keyed (onKey x.1) (List.zipWith (fun x cents => (⟨x.1, cents, none⟩ : Leg)) d (d.map f)) = f x := by
  have hsum : ∀ k, keyed (onKey k) (List.zipWith (fun x cents => (⟨x.1, cents, none⟩ : Leg)) d (d.map f)) =
      Dict.sumAt (d.map fun x => (x.1, f x)) k := by
    intro k
    clear hx hd
    induction d with
    | nil => rfl
    | cons y d ih =>
      rw [List.map_cons, List.zipWith_cons_cons, keyed_cons, ih, List.map_cons, Dict.sumAt_cons]
      simp [onKey]
  rw [hsum, Dict.sumAt_map hd, if_pos (Dict.mem_keys hx), Dict.get_of_mem hd hx]

omit hid hk hparent hs in
/-- Legs on credited accounts only, and the tip: what such a refund adds up to. -/
theorem refundSplit_of_legs (h : RefundedInv original basis db)
    (zs : List Leg) {tip : Int} (hzs : ∀ e ∈ zs, e.key ∈ Dict.keys (owed basis))
    (htip : tip = tipDone original (liveTotal db original + row.amountCents) -
      unwoundOn db original (onCategory .staffCost))
    (hnet : net zs = row.amountCents - tip)
    (hwhole : liveTotal db original + row.amountCents = original.amountCents → ∀ x ∈ owed basis,
      unwoundOn db original (onKey x.1) + keyed (onKey x.1) zs = x.2) :
    RefundSplit db original basis row.amountCents
      (leg .business (cashCategory original) (-row.amountCents) :: (zs ++ tipLegs tip)) := by
  have hcat : ∀ key ∈ Dict.keys (owed basis), key.category.isUnwound = true := by
    intro key hkey
    obtain ⟨x, hx, rfl⟩ := List.mem_map.1 hkey
    rw [← h.basis_eq] at hx
    exact mem_owed hx
  have hcash := cashCategory_isCash original
  have hne : ∀ key ∈ Dict.keys (owed basis), key.category ≠ cashCategory original ∧
      key.category ≠ .staffCost := by
    intro key hkey
    have hu := hcat key hkey
    refine ⟨fun he => ?_, fun he => ?_⟩
    · rw [he] at hu
      rw [Category.not_isCash hu] at hcash
      cases hcash
    · rw [he] at hu
      cases hu
  have hkey : ∀ key ∈ Dict.keys (owed basis),
      keyed (onKey key) (leg .business (cashCategory original) (-row.amountCents) :: (zs ++ tipLegs tip)) =
        keyed (onKey key) zs := by
    intro key hk'
    have h1 := (hne key hk').1
    have h2 := (hne key hk').2
    have hc : onKey key ⟨.business, cashCategory original, .plain⟩ = false :=
      decide_eq_false fun e => h1 (by rw [← e])
    have hs' : onKey key ⟨.business, .staffCost, .plain⟩ = false :=
      decide_eq_false fun e => h2 (by rw [← e])
    rw [keyed_refund, hc, hs']
    simp
  have hstaff : keyed (onCategory .staffCost)
      (leg .business (cashCategory original) (-row.amountCents) :: (zs ++ tipLegs tip)) = tip := by
    have hz : keyed (onCategory .staffCost) zs = 0 :=
      sumOf_eq_zero fun e he hq => absurd (of_decide_eq_true hq) (hne _ (hzs e he)).2
    have hc : onCategory .staffCost ⟨.business, cashCategory original, .plain⟩ = false :=
      decide_eq_false fun e => by
        have e' : cashCategory original = .staffCost := e
        rw [e'] at hcash
        cases hcash
    rw [keyed_refund, hz, hc]
    simp [onCategory]
  refine ⟨?_, ?_, hstaff.trans htip, ?_, fun hw x hx => ?_⟩
  · have hz : keyed onCash zs = 0 := sumOf_eq_zero fun e he hq => by
      have hq' : e.key.category.isCash = true := hq
      rw [Category.not_isCash (hcat _ (hzs e he))] at hq'
      cases hq'
    have hs' : onCash ⟨.business, .staffCost, .plain⟩ = false := rfl
    have hc : onCash ⟨.business, cashCategory original, .plain⟩ = true := hcash
    rw [keyed_refund, hz, hs', hc]
    simp
  · have hsum : ((Dict.keys (owed basis)).map fun key => keyed (onKey key) zs).sum = net zs :=
      sum_keyed (nodup_owed _) hzs
    rw [hstaff, List.map_congr_left hkey, hsum, hnet]
    omega
  · intro e he hl
    rcases List.mem_cons.1 he with rfl | he
    · have e' : cashCategory original = .loss := hl
      rw [e'] at hcash
      cases hcash
    · rcases List.mem_append.1 he with he | he
      · have hu := hcat _ (hzs e he)
        rw [hl] at hu
        cases hu
      · unfold tipLegs at he
        split at he
        · cases he
        · rw [List.mem_singleton.1 he] at hl
          cases hl
  · rw [hkey _ (Dict.mem_keys hx)]
    exact hwhole hw x hx

/-- The legs of the next refund's journal. -/
theorem refundSplit (h : RefundedInv original basis db)
    (hbase : -net basis = original.amountCents - original.tip.cents) (hpos : 0 < row.amountCents)
    (hroom : liveTotal db original + row.amountCents ≤ original.amountCents)
    (hunspent : Unspent db original) (hfits : FitsNow db original row) :
    RefundSplit db original basis row.amountCents
      (refundPosting (db.addPayment row) row original false).legs := by
  have hcr : credits (db.addPayment row).ledger original = basis := h.basis_eq
  have htip := tipReturned_eq hid hk hparent hs h hroom
  have hprior : priorUnwound (db.addPayment row) original row.id =
      fun key => unwoundOn db original (onKey key) := funext fun key => priorUnwound_eq hid hk h key
  have hle := h.unwound_le hpos hroom
  have hunwound := h.unwound
  unfold Unspent at hunspent
  unfold FitsNow at hfits
  rw [h.basis_eq] at hunspent hfits
  have hret : row.amountCents - tipReturned (db.addPayment row) original row.amountCents row.id =
      unwindsNow db original row.amountCents := by rw [htip]; rfl
  simp only [refundPosting, refundLegs, hcr, Bool.false_eq_true, if_false]
  split
  · next hb =>
    -- the payment was all tip: nothing is credited and the tip is the refund
    have hnil : basis = [] := by
      rw [← h.basis_eq] at hb ⊢
      exact credits_eq_nil (by omega)
    have htipA : original.tip.cents = original.amountCents := by
      rw [hnil, net_nil] at hbase
      omega
    have hA : 0 < original.amountCents := by
      have hlive := h.liveTotal_nonneg
      omega
    have hdone : tipDone original (liveTotal db original + row.amountCents) =
        liveTotal db original + row.amountCents := by
      rw [tipDone, htipA, Int.mul_ediv_cancel_left _ (by omega)]
    have hall : liveTotal db original = unwoundOn db original (onCategory .staffCost) := by
      rw [hnil] at hunwound
      have hz : ((owed []).map fun x => unwoundOn db original (onKey x.1)).sum = 0 := rfl
      omega
    have hz : row.amountCents - tipReturned (db.addPayment row) original row.amountCents row.id = 0 := by
      rw [htip, hdone]
      omega
    have hsplit := refundSplit_of_legs h [] (by simp) htip (by rw [hz]; rfl) (by
      intro _ x hx
      rw [hnil] at hx
      cases hx)
    have hkeyed : ∀ r cash rest, keyed r (cash :: leg .business .revenue 0 :: rest) = keyed r (cash :: rest) := by
      intro r cash rest
      have hzero : keyed r (leg .business .revenue 0 :: rest) = keyed r rest := by
        rw [keyed_cons, leg_cents]
        split <;> omega
      rw [keyed_cons, hzero, keyed_cons]
    rw [hz]
    refine ⟨?_, ?_, ?_, ?_, ?_⟩
    · rw [hkeyed]; exact hsplit.cash
    · simp only [hkeyed]; exact hsplit.parts
    · rw [hkeyed]; exact hsplit.tip
    · intro e he
      rcases List.mem_cons.1 he with rfl | he
      · exact hsplit.lossless _ List.mem_cons_self
      · rcases List.mem_cons.1 he with rfl | he
        · simp
        · exact hsplit.lossless _ (List.mem_cons_of_mem _ he)
    · simp only [hkeyed]; exact hsplit.whole
  · next hb =>
    have hbase' : 0 < -net basis := by omega
    have hnonneg : ∀ x ∈ owed basis, 0 ≤ x.2 := h.basis_eq ▸ owed_nonneg
    have hZ := unwind_eq (db.addPayment row) original row.id hbase' hnonneg
      (by rw [hprior, hbase]; exact hle) (by rw [hprior]; exact hfits) (by rw [hprior]; exact hunspent)
    rw [hret, hZ, hprior]
    have hne : owed basis ≠ [] := by
      intro he
      rw [(owed_eq_nil_iff basis).1 he] at hbase'
      simp at hbase'
    have hsum := sum_unwindShares hne (fun key => unwoundOn db original (onKey key)) (-net basis)
      (unwindsNow db original row.amountCents)
    have hlen := length_unwindShares (owed basis) (fun key => unwoundOn db original (onKey key)) (-net basis)
      (unwindsNow db original row.amountCents)
    refine refundSplit_of_legs h _ (fun e he => ?_) htip ?_ fun hw x hx => ?_
    · obtain ⟨i, hi, rfl⟩ := List.mem_iff_getElem.1 he
      rw [List.getElem_zipWith]
      exact Dict.mem_keys (List.getElem_mem _)
    · rw [net_zipWith _ _ hlen, hsum, min_eq_left (by rw [hbase]; exact hle), hret]
      omega
    · have hdone : ((owed basis).map fun x => unwoundOn db original (onKey x.1)).sum +
          unwindsNow db original row.amountCents = -net basis := by
        have hall : tipDone original (liveTotal db original + row.amountCents) = original.tip.cents := by
          rw [hw, tipDone, Int.mul_ediv_cancel _ (by have hlive := h.liveTotal_nonneg; omega)]
        rw [hunwound, unwindsNow, hall, hbase]
        omega
      rw [unwindShares_whole hbase' (total_owed basis) hdone, keyed_accounts (nodup_owed basis) _ hx]
      omega

end

end

end ClientBridge
