import ClientBridge.Ledger.RefundRuns

/-!
# What refunds unwind of each account

A refund gives every account its share of what has been unwound so far, rounded down, and puts the
rounding on the largest credit.  Rounding and gift cards that were spent can take a share below
what was already unwound, or the largest one above its credit; `SharesFit` says when they do not
(`sharesFit_iff`), and refunds whose shares fit take something off every credit and never more
than it (`refunds_within_credits`).
-/

namespace ClientBridge

open Bookkeeping Apportion Runs

/-! ## The refunds of one journal -/

/-- Two payments whose credits stand in the same journal. -/
def SameBasis (original payment : Payment) : Prop :=
  payment.invoiceId = original.invoiceId ∧ (original.invoiceId = none → payment.id = original.id)

def refundsBasis (original q : Payment) : Bool :=
  if original.invoiceId.isSome then decide (q.invoiceId = original.invoiceId)
  else decide (q.parentPaymentId = some original.id)

/-- The succeeded refunds that unwind the journal. -/
def basisRefunds (db : Db) (original : Payment) : List Id :=
  (db.payments.filter fun q => decide (q.kind = .refund ∧ q.status = .succeeded) && refundsBasis original q).map (·.id)

/-- What they unwound of one account together. -/
def unwoundBy (db : Db) (original : Payment) (key : AccountKey) : Int :=
  ((basisRefunds db original).map fun id => returnedOn db.ledger id (onKey key)).sum

/-! ## Steps -/

inductive UnwindAction where
  /-- `unapplied`: the payment never paid the invoice off, and the refund unwinds nothing of it. -/
  | refund (payment row : Payment) (unapplied : Bool)
  | elsewhere

/-- What goes on beside the refunds: nothing of it is a refund of the journal, takes it back in a
dispute or writes the journal itself. -/
structure Elsewhere (original : Payment) (db db' : Db) : Prop where
  journals : Extends (fun j => j.ref ≠ basisRef original ∧
    ∀ id ∈ basisRefunds db original, j.info.event = .refund → j.info.source ≠ some (.payment id)) db.ledger db'.ledger
  refunds : basisRefunds db' original = basisRefunds db original
  lost : lostPayments db' original = lostPayments db original

/-- A refund of one of the journal's payments that succeeded, or something else. -/
inductive UnwindStep (original : Payment) (db : Db) : UnwindAction → Db → Prop
  | refund {payment row db' unapplied} (hbasis : SameBasis original payment) (hid : FreshRefund db row.id)
      (hk : row.kind = .refund) (hparent : row.parentPaymentId = some payment.id)
      (hinvoice : row.invoiceId = payment.invoiceId) (hs : row.status = .succeeded) (hpos : 0 < row.amountCents)
      (h : postRefund (db.addPayment row) row payment unapplied = .ok db') :
      UnwindStep original db (.refund payment row unapplied) db'
  | elsewhere {db'} (h : Elsewhere original db db') : UnwindStep original db .elsewhere db'

/-- What a refund returns beside the tip. -/
def returnedNow (db : Db) (payment row : Payment) : Int :=
  row.amountCents - tipReturned (db.addPayment row) payment row.amountCents row.id

/-- What a refund brings the journal's unwound cents to. -/
def doneWith (db : Db) (original payment row : Payment) : Int :=
  min (((owed (credits db.ledger original)).map fun x => unwoundBy db original x.1).sum + returnedNow db payment row)
    (-net (credits db.ledger original))

/-- No smaller credit has had more unwound than its share of what will be done, and what the others'
rounding leaves of it for the largest is no less than it has had and no more than its credit, or
than what is still held of it. -/
def SharesFit (db : Db) (original payment row : Payment) : Prop :=
  let accounts := owed (credits db.ledger original)
  let base := -net (credits db.ledger original)
  let done := doneWith db original payment row
  ∀ i x, accounts[i]? = some x →
    if i = largest (accounts.map (·.2)) then
      unwoundBy db original x.1 ≤ largestDone accounts base done x.2 ∧
        (largestDone accounts base done x.2 ≤ x.2 ∨
          x.1.owner.holds = true ∧ unwoundBy db original x.1 + max 0 (-balance db.ledger x.1) ≤ x.2)
    else unwoundBy db original x.1 ≤ x.2 * done / base

def FittingUnwind (original : Payment) (db : Db) (a : UnwindAction) (db' : Db) : Prop :=
  UnwindStep original db a db' ∧ ∀ payment row, a = .refund payment row false → SharesFit db original payment row

/-- A journal that was never refunded nor lost. -/
structure NeverRefunded (original : Payment) (db : Db) : Prop where
  refunds : basisRefunds db original = []
  kept : lostPayments db original = []

/-- Every refund takes something or nothing off every credited account, and all of them together no
more than was credited to it. -/
structure WithinCredits (original : Payment) (db : Db) : Prop where
  legs : ∀ j ∈ db.ledger, j.info.event = .refund → fromPayments (basisRefunds db original) j = true →
    ∀ e ∈ j.legs, e.key ∈ Dict.keys (owed (credits db.ledger original)) → 0 ≤ e.cents
  total : ∀ x ∈ owed (credits db.ledger original), 0 ≤ unwoundBy db original x.1 ∧ unwoundBy db original x.1 ≤ x.2

section
variable {original payment row : Payment} {db : Db}

/-! ## What a refund reads -/

theorem SameBasis.refundsBasis_eq (h : SameBasis original payment) (q : Payment) :
    (if payment.invoiceId.isSome then decide (q.invoiceId = payment.invoiceId)
      else decide (q.parentPaymentId = some payment.id)) = refundsBasis original q := by
  unfold refundsBasis
  rw [h.1]
  cases hi : original.invoiceId with
  | some id => rfl
  | none => rw [h.2 hi]

theorem SameBasis.credits_eq (h : SameBasis original payment) (L : Ledger) : credits L payment = credits L original := by
  have href : basisRef payment = basisRef original := by
    unfold basisRef
    rw [h.1]
    cases hi : original.invoiceId with
    | some id => rfl
    | none => rw [h.2 hi]
  rw [credits, credits, href]

theorem SameBasis.lostPayments_eq (h : SameBasis original payment) (db : Db) :
    lostPayments db payment = lostPayments db original := by
  unfold lostPayments
  rw [h.1]
  cases hi : original.invoiceId with
  | some id => rfl
  | none => rw [h.2 hi]

section
variable (hk : row.kind = .refund)
include hk

theorem lostPayments_addPayment : lostPayments (db.addPayment row) original = lostPayments db original := by
  simp [lostPayments, Db.payments_addPayment, Db.ledger_addPayment, List.filter_append, hk]

variable (hid : FreshRefund db row.id)
include hid

omit hk in
theorem unwindingRefunds_eq (hbasis : SameBasis original payment) :
    unwindingRefunds (db.addPayment row) payment row.id = basisRefunds db original := by
  have hold : db.payments.filter (fun q => decide (q.kind = .refund ∧ q.status = .succeeded ∧ q.id ≠ row.id) &&
        if payment.invoiceId.isSome then decide (q.invoiceId = payment.invoiceId)
        else decide (q.parentPaymentId = some payment.id)) =
      db.payments.filter fun q => decide (q.kind = .refund ∧ q.status = .succeeded) && refundsBasis original q := by
    refine List.filter_congr fun q hq => ?_
    have hne := hid.row q hq
    rw [hbasis.refundsBasis_eq]
    simp [hne]
  rw [unwindingRefunds, Db.payments_addPayment, List.filter_append, hold, basisRefunds,
    List.filter_cons_of_neg (by simp), List.filter_nil, List.append_nil]

/-- What earlier refunds unwound is what the journal's refunds unwound. -/
theorem priorUnwound_basis (hbasis : SameBasis original payment) (hkept : lostPayments db original = [])
    (hn : (basisRefunds db original).Nodup) (key : AccountKey) :
    priorUnwound (db.addPayment row) payment row.id key = unwoundBy db original key := by
  have hnone : ∀ j : LedgerJournal, fromPayments [] j = false := by
    intro j
    unfold fromPayments
    split <;> simp
  refine Eq.trans ?_ (sum_fromPayments db.ledger hn (onKey key))
  unfold priorUnwound unwinds
  rw [unwindingRefunds_eq hid hbasis, hbasis.lostPayments_eq, lostPayments_addPayment hk, hkept]
  exact Book.sum_congr fun j _ e _ => by simp [hnone, onKey]

end

/-! ## The parts of a refund -/

theorem mem_zipWith {α β γ : Type} {f : α → β → γ} {xs : List α} {ys : List β} {z : γ} (h : z ∈ List.zipWith f xs ys) :
    ∃ (i : Nat) (x : α) (y : β), xs[i]? = some x ∧ ys[i]? = some y ∧ z = f x y := by
  obtain ⟨i, hi⟩ := List.mem_iff_getElem?.1 h
  rw [List.getElem?_zipWith] at hi
  cases hx : xs[i]? with
  | none => simp [hx] at hi
  | some x =>
    cases hy : ys[i]? with
    | none => simp [hx, hy] at hi
    | some y =>
      rw [hx, hy] at hi
      exact ⟨i, x, y, hx, hy, (Option.some.inj hi).symm⟩

theorem keyed_zipWith {d : List (AccountKey × Int)} (hd : (Dict.keys d).Nodup) {parts : List Int} {i : Nat}
    {x : AccountKey × Int} {cents : Int} (hx : d[i]? = some x) (hc : parts[i]? = some cents) (g : AccountKey → Int → Int) :
    keyed (onKey x.1) (List.zipWith (fun x cents => (⟨x.1, g x.1 cents, none⟩ : Leg)) d parts) = g x.1 cents := by
  induction d generalizing parts i with
  | nil => cases hx
  | cons y d ih =>
    obtain ⟨hny, hd⟩ : y.1 ∉ Dict.keys d ∧ (Dict.keys d).Nodup := List.nodup_cons.1 hd
    cases parts with
    | nil => cases hc
    | cons p parts =>
      rw [List.zipWith_cons_cons, keyed_cons]
      cases i with
      | zero =>
        cases hx
        cases hc
        have hrest : keyed (onKey x.1) (List.zipWith (fun x cents => (⟨x.1, g x.1 cents, none⟩ : Leg)) d parts) = 0 := by
          refine sumOf_eq_zero fun e he hq => ?_
          obtain ⟨j, z, n, hz, -, rfl⟩ := mem_zipWith he
          have hkey : z.1 = x.1 := of_decide_eq_true hq
          exact absurd (hkey ▸ Dict.mem_keys (List.mem_of_getElem? hz)) hny
        simp [onKey, hrest]
      | succ i =>
        rw [List.getElem?_cons_succ] at hx hc
        have hne : y.1 ≠ x.1 := fun he => hny (he ▸ Dict.mem_keys (List.mem_of_getElem? hx))
        rw [ih hd hx hc]
        simp [onKey, hne]

/-- The share of one account, the rounding on the largest. -/
theorem unwindShares_at {accounts : List (AccountKey × Int)} {i : Nat} {x : AccountKey × Int} (hx : accounts[i]? = some x)
    (prior : AccountKey → Int) (base returned : Int) :
    (unwindShares accounts prior base returned)[i]? =
      some (if i = largest (accounts.map (·.2)) then
        largestDone accounts base (min ((accounts.map fun x => prior x.1).sum + returned) base) x.2 - prior x.1
      else x.2 * min ((accounts.map fun x => prior x.1).sum + returned) base / base - prior x.1) := by
  set done := min ((accounts.map fun x => prior x.1).sum + returned) base with hd
  have hsum : (accounts.map fun x => x.2 * done / base - prior x.1).sum =
      (accounts.map fun x => x.2 * done / base).sum - (accounts.map fun x => prior x.1).sum := by
    refine eq_sub_of_add_eq ?_
    rw [← List.sum_map_add]
    simp
  simp only [unwindShares, ← hd, addAt, List.getElem?_modify, List.getElem?_map, hx, Option.map_some, Option.map_eq_map]
  by_cases hi : largest (accounts.map (·.2)) = i
  · rw [if_pos hi, if_pos hi.symm, hsum, largestDone]
    congr 1
    omega
  · rw [if_neg hi, if_neg fun h => hi h.symm]

/-- What a holding gives back is nothing or more exactly if it was asked for no less, and it stays
within a bound if the part asked for does or the holding itself. -/
theorem withinHolding_bounds (L : Ledger) (key : AccountKey) (share : Int) :
    (0 ≤ withinHolding L key share ↔ 0 ≤ share) ∧ ∀ bound, (withinHolding L key share ≤ bound ↔
      share ≤ bound ∨ key.owner.holds = true ∧ max 0 (-balance L key) ≤ bound) := by
  unfold withinHolding Owner.holds
  split <;> simp_all

theorem withinHolding_eq {L : Ledger} {key : AccountKey} {share : Int} (h : key.owner.holds = false) :
    withinHolding L key share = share := by
  unfold Owner.holds at h
  unfold withinHolding
  split <;> simp_all

/-- A share as it is unwound, before a holding cuts it. -/
def unwoundPart (db : Db) (original payment row : Payment) (i : Nat) (x : AccountKey × Int) : Int :=
  let accounts := owed (credits db.ledger original)
  let base := -net (credits db.ledger original)
  let done := doneWith db original payment row
  (if i = largest (accounts.map (·.2)) then largestDone accounts base done x.2 else x.2 * done / base) -
    unwoundBy db original x.1

/-- Legs on accounts that are credited, beside cash, tips and losses, which never are. -/
theorem key_owed {L : Ledger} {key : AccountKey} (h : key ∈ Dict.keys (owed (credits L original))) :
    key.category.isUnwound = true := by
  obtain ⟨x, hx, rfl⟩ := List.mem_map.1 h
  exact mem_owed hx

theorem onKey_other {L : Ledger} {key : AccountKey} (h : key ∈ Dict.keys (owed (credits L original))) {category : Category}
    (hc : category.isUnwound = false) (owner : Owner) (code : Code) : onKey key ⟨owner, category, code⟩ = false :=
  decide_eq_false fun he => by
    have hu := key_owed h
    rw [← he] at hu
    exact absurd (hc.symm.trans hu) Bool.false_ne_true

/-- The legs a refund of the journal books on credited accounts are its parts. -/
structure PartsLegs (db : Db) (original payment row : Payment) (legs : List Leg) : Prop where
  mem : ∀ e ∈ legs, e.key ∈ Dict.keys (owed (credits db.ledger original)) →
    ∃ i x, (owed (credits db.ledger original))[i]? = some x ∧ e.key = x.1 ∧
      e.cents = withinHolding db.ledger x.1 (unwoundPart db original payment row i x)
  sum : ∀ i x, (owed (credits db.ledger original))[i]? = some x →
    keyed (onKey x.1) legs = withinHolding db.ledger x.1 (unwoundPart db original payment row i x)

section
variable (hk : row.kind = .refund) (hid : FreshRefund db row.id) (hbasis : SameBasis original payment)
  (hkept : lostPayments db original = []) (hn : (basisRefunds db original).Nodup)
include hk hid hbasis hkept hn

theorem partsLegs_unwind (htip : List Leg) (ht : ∀ e ∈ htip, e.key.category.isUnwound = false) (cash : Leg)
    (hc : cash.key.category.isUnwound = false) :
    PartsLegs db original payment row (cash :: (unwind (db.addPayment row) payment row.id (credits db.ledger original)
      (-net (credits db.ledger original)) (returnedNow db payment row) ++ htip)) := by
  have hprior : priorUnwound (db.addPayment row) payment row.id = unwoundBy db original :=
    funext fun key => priorUnwound_basis hk hid hbasis hkept hn key
  have hpart : ∀ i x, (owed (credits db.ledger original))[i]? = some x →
      (unwindShares (owed (credits db.ledger original)) (unwoundBy db original) (-net (credits db.ledger original))
        (returnedNow db payment row))[i]? = some (unwoundPart db original payment row i x) := by
    intro i x hx
    rw [unwindShares_at hx, unwoundPart]
    simp only [doneWith]
    split <;> rfl
  have hother : ∀ {key : AccountKey} {e : Leg}, key ∈ Dict.keys (owed (credits db.ledger original)) →
      e.key.category.isUnwound = false → onKey key e.key = false := fun hkey he => onKey_other hkey he _ _
  have hlost : ∀ e ∈ ([leg .business .loss (returnedNow db payment row - net (List.zipWith (fun x cents =>
      (⟨x.1, withinHolding db.ledger x.1 cents, none⟩ : Leg)) (owed (credits db.ledger original))
      (unwindShares (owed (credits db.ledger original)) (unwoundBy db original) (-net (credits db.ledger original))
        (returnedNow db payment row))))] : List Leg), e.key.category.isUnwound = false := by
    intro e he
    rw [List.mem_singleton.1 he]
    rfl
  -- the legs are the parts, then perhaps a loss, then the tip
  obtain ⟨rest, hrest, hlegs⟩ : ∃ rest : List Leg, (∀ e ∈ rest, e.key.category.isUnwound = false) ∧
      unwind (db.addPayment row) payment row.id (credits db.ledger original) (-net (credits db.ledger original))
        (returnedNow db payment row) = List.zipWith (fun x cents =>
          (⟨x.1, withinHolding db.ledger x.1 cents, none⟩ : Leg)) (owed (credits db.ledger original))
          (unwindShares (owed (credits db.ledger original)) (unwoundBy db original) (-net (credits db.ledger original))
            (returnedNow db payment row)) ++ rest := by
    simp only [unwind, hprior, Db.ledger_addPayment]
    split
    · exact ⟨_, hlost, rfl⟩
    · exact ⟨[], fun e he => absurd he List.not_mem_nil, (List.append_nil _).symm⟩
  rw [hlegs, List.append_assoc]
  have hrest' : ∀ e ∈ rest ++ htip, e.key.category.isUnwound = false := fun e he =>
    (List.mem_append.1 he).elim (hrest e) (ht e)
  refine ⟨fun e he hkey => ?_, fun i x hx => ?_⟩
  · have hu := key_owed hkey
    obtain rfl | he := List.mem_cons.1 he
    · exact absurd (hc.symm.trans hu) Bool.false_ne_true
    obtain he | he := List.mem_append.1 he
    · obtain ⟨i, x, cents, hx, hcents, rfl⟩ := mem_zipWith he
      rw [hpart i x hx] at hcents
      exact ⟨i, x, hx, rfl, by rw [Option.some.inj hcents]⟩
    · exact absurd ((hrest' e he).symm.trans hu) Bool.false_ne_true
  · have hkey : x.1 ∈ Dict.keys (owed (credits db.ledger original)) := Dict.mem_keys (List.mem_of_getElem? hx)
    have hzero : keyed (onKey x.1) (rest ++ htip) = 0 := sumOf_eq_zero fun e he hq => by
      rw [hother hkey (hrest' e he)] at hq
      cases hq
    rw [keyed_cons, hother hkey hc, keyed_append, keyed_zipWith (nodup_owed _) hx (hpart i x hx), hzero]
    simp

theorem partsLegs_refund : PartsLegs db original payment row (refundPosting (db.addPayment row) row payment false).legs := by
  have htip : ∀ tip, ∀ e ∈ tipLegs tip, e.key.category.isUnwound = false := by
    intro tip e he
    unfold tipLegs at he
    split at he
    · cases he
    · rw [List.mem_singleton.1 he]
      rfl
  have hcash : (leg .business (cashCategory payment) (-row.amountCents)).key.category.isUnwound = false := by
    simp only [leg_key]
    unfold cashCategory
    split <;> rfl
  have hcr : credits (db.addPayment row).ledger payment = credits db.ledger original := hbasis.credits_eq db.ledger
  simp only [refundPosting, refundLegs, hcr, Bool.false_eq_true, if_false]
  split
  · next hb =>
    have hnil : credits db.ledger original = [] := credits_eq_nil (by omega)
    have hempty : owed (credits db.ledger original) = [] := by rw [hnil]; rfl
    refine ⟨fun e _ hkey => ?_, fun i x hx => ?_⟩
    · rw [hempty] at hkey
      cases hkey
    · rw [hempty] at hx
      cases hx
  · exact partsLegs_unwind hk hid hbasis hkept hn _ (htip _) _ hcash

end

/-- The shares fit exactly if every part takes something or nothing off its credit, and with what was
unwound before no more than the credit. -/
theorem sharesFit_iff (hbase : 0 < -net (credits db.ledger original)) :
    SharesFit db original payment row ↔ ∀ i x, (owed (credits db.ledger original))[i]? = some x →
      0 ≤ withinHolding db.ledger x.1 (unwoundPart db original payment row i x) ∧
        unwoundBy db original x.1 + withinHolding db.ledger x.1 (unwoundPart db original payment row i x) ≤ x.2 := by
  refine forall_congr' fun i => forall_congr' fun x => imp_congr_right fun hx => ?_
  obtain ⟨h0, hle⟩ := withinHolding_bounds db.ledger x.1 (unwoundPart db original payment row i x)
  have hup := hle (x.2 - unwoundBy db original x.1)
  have hdone : doneWith db original payment row ≤ -net (credits db.ledger original) := min_le_right _ _
  have hfloor : x.2 * doneWith db original payment row / -net (credits db.ledger original) ≤ x.2 := by
    have hx0 := owed_nonneg x (List.mem_of_getElem? hx)
    have := Int.ediv_le_ediv hbase (Int.mul_le_mul_of_nonneg_left hdone hx0)
    rwa [Int.mul_ediv_cancel _ hbase.ne'] at this
  rw [h0, show (unwoundBy db original x.1 + withinHolding db.ledger x.1 (unwoundPart db original payment row i x) ≤ x.2 ↔
    withinHolding db.ledger x.1 (unwoundPart db original payment row i x) ≤ x.2 - unwoundBy db original x.1) by omega, hup]
  simp only [unwoundPart]
  split
  · constructor
    · rintro ⟨h1, h2⟩
      refine ⟨by omega, h2.imp (fun h => by omega) fun h => ⟨h.1, by omega⟩⟩
    · rintro ⟨h1, h2⟩
      refine ⟨by omega, h2.imp (fun h => by omega) fun h => ⟨h.1, by omega⟩⟩
  · constructor
    · intro h
      exact ⟨by omega, .inl (by omega)⟩
    · rintro ⟨h, -⟩
      omega

/-! ## What a refund leaves -/

theorem basisRefunds_addPayment (hbasis : SameBasis original payment) (hk : row.kind = .refund)
    (hparent : row.parentPaymentId = some payment.id) (hinvoice : row.invoiceId = payment.invoiceId)
    (hs : row.status = .succeeded) (L : Ledger) :
    basisRefunds ((db.addPayment row).withLedger L) original = basisRefunds db original ++ [row.id] := by
  have hrow : refundsBasis original row = true := by
    unfold refundsBasis
    rw [hinvoice, hbasis.1, hparent]
    cases hi : original.invoiceId with
    | some id => simp
    | none => simp [hbasis.2 hi]
  simp [basisRefunds, List.filter_append, hk, hs, hrow]

/-- A refund that unwinds nothing leaves every credit alone. -/
theorem unapplied_other {key : AccountKey} (hkey : key ∈ Dict.keys (owed (credits db.ledger original))) :
    ∀ e ∈ (refundPosting (db.addPayment row) row payment true).legs, e.key ≠ key := by
  have hu := key_owed hkey
  intro e he hkey'
  rw [← hkey'] at hu
  simp only [refundPosting, refundLegs, if_true, List.mem_cons, tipLegs] at he
  rcases he with rfl | rfl | he
  · simp only [leg_key, cashCategory] at hu
    split at hu <;> cases hu
  · cases hu
  · split at he
    · cases he
    · rw [List.mem_singleton.1 he] at hu
      cases hu

/-- What a refund whose shares fit books on the credited accounts. -/
structure FitLegs (db : Db) (original : Payment) (legs : List Leg) : Prop where
  nonneg : ∀ e ∈ legs, e.key ∈ Dict.keys (owed (credits db.ledger original)) → 0 ≤ e.cents
  bounds : ∀ x ∈ owed (credits db.ledger original),
    0 ≤ keyed (onKey x.1) legs ∧ unwoundBy db original x.1 + keyed (onKey x.1) legs ≤ x.2

theorem fitLegs_unapplied (htotal : ∀ x ∈ owed (credits db.ledger original), unwoundBy db original x.1 ≤ x.2) :
    FitLegs db original (refundPosting (db.addPayment row) row payment true).legs := by
  refine ⟨fun e he hkey => absurd rfl (unapplied_other hkey e he), fun x hx => ?_⟩
  have hzero : keyed (onKey x.1) (refundPosting (db.addPayment row) row payment true).legs = 0 :=
    sumOf_eq_zero fun e he hq => absurd (of_decide_eq_true hq) (unapplied_other (Dict.mem_keys hx) e he)
  have := htotal x hx
  omega

theorem fitLegs_refund (hk : row.kind = .refund) (hid : FreshRefund db row.id) (hbasis : SameBasis original payment)
    (hkept : lostPayments db original = []) (hn : (basisRefunds db original).Nodup)
    (hfit : SharesFit db original payment row) :
    FitLegs db original (refundPosting (db.addPayment row) row payment false).legs := by
  have hparts := partsLegs_refund hk hid hbasis hkept hn
  have hfits : ∀ i x, (owed (credits db.ledger original))[i]? = some x →
      0 ≤ withinHolding db.ledger x.1 (unwoundPart db original payment row i x) ∧
        unwoundBy db original x.1 + withinHolding db.ledger x.1 (unwoundPart db original payment row i x) ≤ x.2 := by
    by_cases hbase : 0 < -net (credits db.ledger original)
    · exact (sharesFit_iff hbase).1 hfit
    · intro i x hx
      rw [credits_eq_nil (by omega)] at hx
      cases hx
  refine ⟨fun e he hkey => ?_, fun x hx => ?_⟩
  · obtain ⟨i, x, hx, -, hcents⟩ := hparts.mem e he hkey
    exact hcents ▸ (hfits i x hx).1
  · obtain ⟨i, hi⟩ := List.mem_iff_getElem?.1 hx
    rw [hparts.sum i x hi]
    exact hfits i x hi

end

/-! ## Runs -/

/-- What holds of the journal's refunds at any time. -/
structure UnwindInv (original : Payment) (db : Db) : Prop where
  kept : lostPayments db original = []
  nodup : (basisRefunds db original).Nodup
  within : WithinCredits original db

section
variable {original : Payment} {db db' : Db}

theorem mem_basisRefunds {id : Id} (h : id ∈ basisRefunds db original) : ∃ q ∈ db.payments, q.id = id := by
  obtain ⟨q, hq, rfl⟩ := List.mem_map.1 h
  exact ⟨q, List.mem_of_mem_filter hq, rfl⟩

theorem fromPayments_iff {ids : List Id} {j : LedgerJournal} :
    fromPayments ids j = true ↔ ∃ id ∈ ids, j.info.source = some (.payment id) := by
  unfold fromPayments
  split
  · next id hs => simp [hs]
  · next h =>
    refine ⟨fun hf => absurd hf Bool.false_ne_true, ?_⟩
    rintro ⟨id, -, hs⟩
    exact absurd hs (h id)

theorem basisRefunds_ne {row : Payment} (hid : FreshRefund db row.id) {id : Id} (h : id ∈ basisRefunds db original) :
    id ≠ row.id := by
  obtain ⟨q, hq, rfl⟩ := mem_basisRefunds h
  exact hid.row q hq

/-- A refund joins the journal's refunds, leaves its credits as they are and adds to what was unwound. -/
theorem unwoundBy_postRefund {payment row : Payment} {unapplied : Bool} (hbasis : SameBasis original payment)
    (hid : FreshRefund db row.id) (hk : row.kind = .refund) (hparent : row.parentPaymentId = some payment.id)
    (hinvoice : row.invoiceId = payment.invoiceId) (hs : row.status = .succeeded)
    (h : postRefund (db.addPayment row) row payment unapplied = .ok db') :
    basisRefunds db' original = basisRefunds db original ++ [row.id] ∧
      credits db'.ledger original = credits db.ledger original ∧
      ∀ key, unwoundBy db' original key =
        unwoundBy db original key + keyed (onKey key) (refundPosting (db.addPayment row) row payment unapplied).legs := by
  have hown := returnedOn_postRefund h hid
  have hother := fun id (hne : id ≠ row.id) => returnedOn_postRefund_of_ne h hne
  obtain ⟨L', subject, rfl, hg, -⟩ := postRefund_extends h
  have hrefunds : basisRefunds ((db.addPayment row).withLedger L') original = basisRefunds db original ++ [row.id] :=
    basisRefunds_addPayment hbasis hk hparent hinvoice hs L'
  refine ⟨hrefunds, credits_of_grows hg ?_, fun key => ?_⟩
  · rintro (hr | ⟨s, hr⟩) <;> rcases basisRef_cases original with ⟨id, hb⟩ | hb <;> rw [hb] at hr <;> cases hr
  · unfold unwoundBy
    rw [hrefunds, List.map_append, List.sum_append,
      List.map_congr_left fun id hm => hother id (basisRefunds_ne hid hm) (onKey key), List.map_singleton,
      List.sum_singleton, hown]

theorem Elsewhere.credits_eq (h : Elsewhere original db db') : credits db'.ledger original = credits db.ledger original :=
  credits_of_grows (P := fun r => r ≠ basisRef original) (h.journals.mono fun _ hj => hj.1) fun hne => hne rfl

theorem Elsewhere.unwoundBy_eq (h : Elsewhere original db db') (key : AccountKey) :
    unwoundBy db' original key = unwoundBy db original key := by
  unfold unwoundBy
  rw [h.refunds]
  congr 1
  exact List.map_congr_left fun id hm => returnedOn_of_extends h.journals (fun _ hj he => hj.2 id hm he) (onKey key)

theorem UnwindInv.refund {payment row : Payment} {unapplied : Bool} (hinv : UnwindInv original db)
    (hbasis : SameBasis original payment) (hid : FreshRefund db row.id) (hk : row.kind = .refund)
    (hparent : row.parentPaymentId = some payment.id) (hinvoice : row.invoiceId = payment.invoiceId)
    (hs : row.status = .succeeded) (hfit : unapplied = false → SharesFit db original payment row)
    (h : postRefund (db.addPayment row) row payment unapplied = .ok db') : UnwindInv original db' := by
  have hlegs : FitLegs db original (refundPosting (db.addPayment row) row payment unapplied).legs := by
    cases unapplied with
    | true => exact fitLegs_unapplied fun x hx => (hinv.within.total x hx).2
    | false => exact fitLegs_refund hk hid hbasis hinv.kept hinv.nodup (hfit rfl)
  obtain ⟨hrefunds, hcredits, hunwound⟩ := unwoundBy_postRefund hbasis hid hk hparent hinvoice hs h
  obtain ⟨L', subject, rfl, hg, hx⟩ := postRefund_extends h
  refine ⟨?_, ?_, ⟨fun j hj hevent hfrom e he hkey => ?_, fun x hx => ?_⟩⟩
  · rw [lostPayments_of_grows (db.addPayment row) hg ?_, lostPayments_addPayment hk]
    · exact hinv.kept
    · rintro r (rfl | ⟨s, rfl⟩) id <;> simp
  · rw [hrefunds, List.nodup_append]
    refine ⟨hinv.nodup, by simp, fun a ha b hb => ?_⟩
    rw [List.mem_singleton.1 hb]
    exact basisRefunds_ne hid ha
  · rw [hcredits] at hkey
    rw [hrefunds, fromPayments_iff] at hfrom
    obtain ⟨id, hm, hsource⟩ := hfrom
    rcases hx.mem_or hj with hj | hj
    · rcases Book.mem_write hj with hj | ⟨-, -, rfl⟩
      · -- an older journal is of an older refund
        have hold : id ∈ basisRefunds db original := by
          rcases List.mem_append.1 hm with hm | hm
          · exact hm
          · rw [List.mem_singleton.1 hm] at hsource
            exact absurd hsource (hid.source j hj)
        exact hinv.within.legs j hj hevent (fromPayments_iff.2 ⟨id, hold, hsource⟩) e he hkey
      · obtain ⟨l, hl, rfl⟩ := mem_written he
        exact hlegs.nonneg l hl hkey
    · rw [hj.2.1] at hevent
      cases hevent
  · rw [hcredits] at hx
    obtain ⟨h0, hle⟩ := hlegs.bounds x hx
    have := (hinv.within.total x hx).1
    rw [hunwound]
    omega

theorem UnwindInv.elsewhere (hinv : UnwindInv original db) (h : Elsewhere original db db') : UnwindInv original db' := by
  refine ⟨h.lost.trans hinv.kept, h.refunds ▸ hinv.nodup, ⟨fun j hj hevent hfrom e he hkey => ?_, fun x hx => ?_⟩⟩
  · rw [h.credits_eq] at hkey
    rw [h.refunds] at hfrom
    rcases h.journals.mem_or hj with hj | hj
    · exact hinv.within.legs j hj hevent hfrom e he hkey
    · obtain ⟨id, hm, hsource⟩ := fromPayments_iff.1 hfrom
      exact absurd hsource (hj.2 id hm hevent)
  · rw [h.credits_eq] at hx
    rw [h.unwoundBy_eq]
    exact hinv.within.total x hx

theorem NeverRefunded.unwoundBy_eq (h : NeverRefunded original db) (key : AccountKey) :
    unwoundBy db original key = 0 := by
  unfold unwoundBy
  rw [h.refunds]
  rfl

theorem NeverRefunded.inv (h : NeverRefunded original db) : UnwindInv original db := by
  refine ⟨h.kept, h.refunds ▸ List.nodup_nil, ⟨fun j _ _ hfrom => ?_, fun x hx => ?_⟩⟩
  · rw [h.refunds, fromPayments_iff] at hfrom
    obtain ⟨id, hm, -⟩ := hfrom
    cases hm
  · rw [h.unwoundBy_eq]
    exact ⟨le_refl 0, owed_nonneg x hx⟩

/-- **Refunds never add to what they unwind.**  In every run of refunds whose shares fit, every leg
on a credited account takes something or nothing off it, and together they take no more than was
credited. -/
theorem refunds_within_credits {original : Payment} {db₀ db : Db} {as : List UnwindAction} (h₀ : NeverRefunded original db₀)
    (hrun : Run (FittingUnwind original) db₀ as db) : WithinCredits original db := by
  have hinv : UnwindInv original db := by
    refine hrun.invariant (I := UnwindInv original) ?_ h₀.inv
    rintro t a u ht ⟨hstep, hfit⟩
    cases hstep with
    | refund hbasis hid hk hparent hinvoice hs hpos h =>
      exact ht.refund hbasis hid hk hparent hinvoice hs (fun hu => hfit _ _ (by rw [hu])) h
    | elsewhere h => exact ht.elsewhere h
  exact hinv.within

end

/-! ## Journals with two credits

The rounding of one other credit never reaches past the largest, so the shares of a sale under one
tax code always fit. -/

/-- An account's share of what is unwound, the rounding on the largest. -/
def shareOf (accounts : List (AccountKey × Int)) (base done : Int) (i : Nat) (x : AccountKey × Int) : Int :=
  if i = largest (accounts.map (·.2)) then largestDone accounts base done x.2 else x.2 * done / base

/-- Every account has had its share of what was unwound. -/
def SharedOut (original : Payment) (db : Db) (done : Int) : Prop :=
  ∀ i x, (owed (credits db.ledger original))[i]? = some x →
    unwoundBy db original x.1 = shareOf (owed (credits db.ledger original)) (-net (credits db.ledger original)) done i x

/-- A refund that returns no more tip than its cents. -/
def Returning (original : Payment) (db : Db) (a : UnwindAction) (db' : Db) : Prop :=
  UnwindStep original db a db' ∧ ∀ payment row, a = .refund payment row false → 0 ≤ returnedNow db payment row

section
variable {accounts : List (AccountKey × Int)} {base : Int}

/-- The shares make up what is unwound. -/
theorem sum_shareOf (hne : accounts ≠ []) {unwound : AccountKey → Int} {done : Int}
    (h : ∀ i x, accounts[i]? = some x → unwound x.1 = shareOf accounts base done i x) :
    (accounts.map fun x => unwound x.1).sum = done := by
  have hparts : (accounts.map fun x => unwound x.1) = addAt (accounts.map fun x => x.2 * done / base)
      (largest (accounts.map (·.2))) (done - (accounts.map fun x => x.2 * done / base).sum) := by
    refine List.ext_getElem? fun i => ?_
    rw [addAt, List.getElem?_modify, List.getElem?_map, List.getElem?_map]
    cases hx : accounts[i]? with
    | none => rfl
    | some x =>
      simp only [Option.map_some, Option.map_eq_map, h i x hx, shareOf, largestDone]
      by_cases hi : i = largest (accounts.map (·.2))
      · rw [if_pos hi, if_pos hi.symm]
      · rw [if_neg hi, if_neg fun he => hi (Eq.symm he)]
  have hlt : largest (accounts.map (·.2)) < (accounts.map fun x => x.2 * done / base).length := by
    have := @largest_lt (accounts.map (·.2)) (by simpa using hne)
    simpa using this
  rw [hparts, sum_addAt hlt]
  omega

/-- Of two credits, the largest gets what the other's floor leaves. -/
theorem largestDone_of_two (hlen : accounts.length ≤ 2) (hnonneg : ∀ x ∈ accounts, 0 ≤ x.2)
    (htotal : (accounts.map (·.2)).sum = base) {x : AccountKey × Int} (hx : x ∈ accounts) :
    ∃ rest, 0 ≤ rest ∧ x.2 + rest = base ∧ ∀ done, largestDone accounts base done x.2 = done - rest * done / base := by
  cases accounts with
  | nil => cases hx
  | cons y tail =>
    cases tail with
    | nil =>
      obtain rfl := List.mem_singleton.1 hx
      refine ⟨0, le_refl 0, by simpa using htotal, fun done => ?_⟩
      unfold largestDone
      simp
    | cons z tail =>
      obtain rfl : tail = [] := List.eq_nil_of_length_eq_zero (by simpa using hlen)
      have hy := hnonneg y List.mem_cons_self
      have hz := hnonneg z (List.mem_cons_of_mem _ List.mem_cons_self)
      have hsum : y.2 + z.2 = base := by simpa using htotal
      rcases List.mem_cons.1 hx with rfl | hx
      · refine ⟨z.2, hz, hsum, fun done => ?_⟩
        simp only [largestDone, List.map_cons, List.map_nil, List.sum_cons, List.sum_nil]
        omega
      · obtain rfl := List.mem_singleton.1 hx
        refine ⟨y.2, hy, by omega, fun done => ?_⟩
        simp only [largestDone, List.map_cons, List.map_nil, List.sum_cons, List.sum_nil]
        omega

end

section
variable {original payment row : Payment} {db db' : Db} {done : Int}

theorem SharedOut.doneWith_eq (h : SharedOut original db done) (hne : owed (credits db.ledger original) ≠ []) :
    doneWith db original payment row = min (done + returnedNow db payment row) (-net (credits db.ledger original)) := by
  unfold doneWith
  rw [sum_shareOf hne h]

/-- Where every account has had its share and there are two, the shares of the next refund fit. -/
theorem SharedOut.fits (h : SharedOut original db done) (hle : done ≤ -net (credits db.ledger original))
    (hlen : (owed (credits db.ledger original)).length ≤ 2) (hback : 0 ≤ returnedNow db payment row) :
    SharesFit db original payment row := by
  intro i x hx
  have hmem := List.mem_of_getElem? hx
  have hbase : 0 < -net (credits db.ledger original) := by
    by_contra hnot
    rw [credits_eq_nil (by omega)] at hmem
    cases hmem
  have hdone := @SharedOut.doneWith_eq _ payment row _ _ h (List.ne_nil_of_mem hmem)
  have hgrows : done ≤ doneWith db original payment row := by omega
  have hbound : doneWith db original payment row ≤ -net (credits db.ledger original) := min_le_right _ _
  have hbefore := h i x hx
  unfold shareOf at hbefore
  split
  · next hi =>
    rw [if_pos hi] at hbefore
    obtain ⟨rest, hrest, hsum, heq⟩ := largestDone_of_two hlen owed_nonneg (total_owed _) hmem
    rw [hbefore, heq, heq]
    refine ⟨rest_mono hbase ?_ hgrows, .inl ?_⟩
    · have := owed_nonneg x hmem
      omega
    · rw [← hsum] at hbase hbound ⊢
      exact rest_le (owed_nonneg x hmem) hbase hbound
  · next hi =>
    rw [if_neg hi] at hbefore
    rw [hbefore]
    exact Int.ediv_le_ediv hbase (Int.mul_le_mul_of_nonneg_left hgrows (owed_nonneg x hmem))

/-- A refund of credits that are no holdings gives every account its share again. -/
theorem SharedOut.refund {unapplied : Bool} (h : SharedOut original db done)
    (hle : done ≤ -net (credits db.ledger original)) (hinv : UnwindInv original db)
    (hholds : ∀ x ∈ owed (credits db.ledger original), x.1.owner.holds = false)
    (hbasis : SameBasis original payment) (hid : FreshRefund db row.id) (hk : row.kind = .refund)
    (hparent : row.parentPaymentId = some payment.id) (hinvoice : row.invoiceId = payment.invoiceId)
    (hs : row.status = .succeeded) (hp : postRefund (db.addPayment row) row payment unapplied = .ok db') :
    ∃ done' ≤ -net (credits db.ledger original), SharedOut original db' done' := by
  obtain ⟨-, hcredits, hunwound⟩ := unwoundBy_postRefund hbasis hid hk hparent hinvoice hs hp
  cases unapplied with
  | true =>
    refine ⟨done, hle, fun i x hx => ?_⟩
    rw [hcredits] at hx ⊢
    have hkey := Dict.mem_keys (List.mem_of_getElem? hx)
    have hzero : keyed (onKey x.1) (refundPosting (db.addPayment row) row payment true).legs = 0 :=
      sumOf_eq_zero fun e he hq => absurd (of_decide_eq_true hq) (unapplied_other hkey e he)
    rw [hunwound, hzero, Int.add_zero]
    exact h i x hx
  | false =>
    refine ⟨doneWith db original payment row, min_le_right _ _, fun i x hx => ?_⟩
    rw [hcredits] at hx ⊢
    have hno := hholds x (List.mem_of_getElem? hx)
    rw [hunwound, (partsLegs_refund hk hid hbasis hinv.kept hinv.nodup).sum i x hx, withinHolding_eq hno]
    exact add_sub_cancel _ _

theorem returnedNow_of_untipped (htip : payment.tip.cents = 0) : returnedNow db payment row = row.amountCents := by
  unfold returnedNow tipReturned
  rw [if_pos (by omega), Int.sub_zero]

/-- **With at most two credits, neither on a gift card nor a package, the shares always fit.** -/
theorem sharesFit_of_two {db₀ : Db} {as : List UnwindAction} (h₀ : NeverRefunded original db₀)
    (hlen : (owed (credits db₀.ledger original)).length ≤ 2)
    (hholds : ∀ x ∈ owed (credits db₀.ledger original), x.1.owner.holds = false)
    (hrun : Run (Returning original) db₀ as db) : Run (FittingUnwind original) db₀ as db := by
  have hinv : Run (FittingUnwind original) db₀ as db ∧ UnwindInv original db ∧
      credits db.ledger original = credits db₀.ledger original ∧
      ∃ done ≤ -net (credits db.ledger original), SharedOut original db done := by
    induction hrun with
    | nil =>
      refine ⟨.nil, h₀.inv, rfl, 0, ?_, fun i x _ => ?_⟩
      · rw [← total_owed]
        exact List.sum_nonneg fun c hc => by
          obtain ⟨x, hx, rfl⟩ := List.mem_map.1 hc
          exact owed_nonneg x hx
      · rw [h₀.unwoundBy_eq]
        unfold shareOf largestDone
        simp
    | snoc _ hs ih =>
      obtain ⟨hrun, hinv, hcredits, done, hle, hshared⟩ := ih
      obtain ⟨hstep, hback⟩ := hs
      have hfit : ∀ payment row, _ = UnwindAction.refund payment row false → SharesFit _ original payment row :=
        fun payment row he => hshared.fits hle (hcredits ▸ hlen) (hback payment row he)
      refine ⟨.snoc hrun ⟨hstep, hfit⟩, ?_⟩
      cases hstep with
      | refund hbasis hid hk hparent hinvoice hs hpos h =>
        obtain ⟨-, hsame, -⟩ := unwoundBy_postRefund hbasis hid hk hparent hinvoice hs h
        obtain ⟨done', hle', hshared'⟩ := hshared.refund hle hinv (hcredits ▸ hholds) hbasis hid hk hparent hinvoice hs h
        exact ⟨hinv.refund hbasis hid hk hparent hinvoice hs (fun hu => hfit _ _ (by rw [hu])) h, hsame.trans hcredits,
          done', hsame ▸ hle', hshared'⟩
      | elsewhere h =>
        refine ⟨hinv.elsewhere h, h.credits_eq.trans hcredits, done, h.credits_eq ▸ hle, fun i x hx => ?_⟩
        rw [h.credits_eq] at hx ⊢
        rw [h.unwoundBy_eq]
        exact hshared i x hx
  exact hinv.1

end

/-! ## A sale of 112.00, taxed twice -/

def taxedSale : Payment := cashSale 11200 0 untipped_le

def taxedDb : Db := settledDb taxedSale
  [leg .business .revenue (-10000), legOf .business .tax (-500) (.tax .GST), legOf .business .tax (-700) (.tax .PST)]

theorem taxedStep {db : Db} (id : Id) (amount : Nat) (hid : FreshRefund db id) (hpos : 0 < amount)
    (h : (postRefund (db.addPayment (cashRefund taxedSale id amount)) (cashRefund taxedSale id amount) taxedSale
      false).toOption.isSome) :
    UnwindStep taxedSale db (.refund taxedSale (cashRefund taxedSale id amount) false)
      ((postRefund (db.addPayment (cashRefund taxedSale id amount)) (cashRefund taxedSale id amount) taxedSale
        false).toOption.get h) :=
  .refund ⟨rfl, fun _ => rfl⟩ hid rfl rfl rfl rfl (by simpa [cashRefund, cashSale] using hpos) (eq_ok_get h)

def taxedDb₁ : Db := (postRefund (taxedDb.addPayment (cashRefund taxedSale "ref_1" 5000))
  (cashRefund taxedSale "ref_1" 5000) taxedSale false).toOption.get (by decide)

theorem taxed_fits : SharesFit taxedDb taxedSale taxedSale (cashRefund taxedSale "ref_1" 5000) :=
  (sharesFit_iff (by decide)).2 fun i x hx => by
    have hi : i < 3 := (List.getElem?_eq_some_iff.1 hx).1
    obtain rfl | rfl | rfl : i = 0 ∨ i = 1 ∨ i = 2 := by omega
    all_goals
      cases hx
      decide

/-- 50.00 of the sale are refunded. -/
theorem taxed_within : WithinCredits taxedSale taxedDb₁ := by
  have h₀ : NeverRefunded taxedSale taxedDb := ⟨by decide, by decide⟩
  have h₁ : FittingUnwind taxedSale taxedDb (.refund taxedSale (cashRefund taxedSale "ref_1" 5000) false) taxedDb₁ := by
    refine ⟨taxedStep "ref_1" 5000 ⟨by decide, ?_, by decide⟩ (by decide) (by decide), ?_⟩
    · rintro r (rfl | ⟨s, rfl⟩) <;> rfl
    · intro payment row he
      cases he
      exact taxed_fits
  exact refunds_within_credits h₀ (.cons h₁ .nil)

def taxedDb₂ : Db := (postRefund (taxedDb.addPayment (cashRefund taxedSale "ref_1" 11199))
  (cashRefund taxedSale "ref_1" 11199) taxedSale false).toOption.get (by decide)

def taxedDb₃ : Db := (postRefund (taxedDb₂.addPayment (cashRefund taxedSale "ref_2" 1))
  (cashRefund taxedSale "ref_2" 1) taxedSale false).toOption.get (by decide)

/-- All but a cent is refunded, which takes 100.01 off the 100.00 of revenue, and the last cent's
refund puts one back. -/
theorem last_cent_adds_revenue :
    NeverRefunded taxedSale taxedDb ∧
      Run (UnwindStep taxedSale) taxedDb [.refund taxedSale (cashRefund taxedSale "ref_1" 11199) false] taxedDb₂ ∧
      unwoundBy taxedDb₂ taxedSale ⟨.business, .revenue, .plain⟩ = 10001 ∧ ¬WithinCredits taxedSale taxedDb₂ ∧
      Run (UnwindStep taxedSale) taxedDb₂ [.refund taxedSale (cashRefund taxedSale "ref_2" 1) false] taxedDb₃ ∧
      (∃ j ∈ taxedDb₃.ledger, j.ref = .refund "ref_2" ∧
        ∃ e ∈ j.legs, e.key = ⟨.business, .revenue, .plain⟩ ∧ e.cents = -1) ∧ ¬WithinCredits taxedSale taxedDb₃ := by
  have hover : unwoundBy taxedDb₂ taxedSale ⟨.business, .revenue, .plain⟩ = 10001 := by decide
  have hadds : ∃ j ∈ taxedDb₃.ledger, j.ref = .refund "ref_2" ∧
      ∃ e ∈ j.legs, e.key = ⟨.business, .revenue, .plain⟩ ∧ e.cents = -1 := by decide
  refine ⟨⟨by decide, by decide⟩, .cons (taxedStep "ref_1" 11199 ⟨by decide, ?_, by decide⟩ (by decide) (by decide)) .nil,
    hover, fun h => ?_, .cons (taxedStep "ref_2" 1 ⟨by decide, ?_, by decide⟩ (by decide) (by decide)) .nil, hadds,
    fun h => ?_⟩
  · rintro r (rfl | ⟨s, rfl⟩) <;> rfl
  · have hle := (h.total (⟨.business, .revenue, .plain⟩, 10000) (by decide)).2
    rw [hover] at hle
    exact absurd hle (by decide)
  · rintro r (rfl | ⟨s, rfl⟩) <;> rfl
  · have hall : ∀ j ∈ taxedDb₃.ledger, j.info.event = .refund →
        fromPayments (basisRefunds taxedDb₃ taxedSale) j = true → ∀ e ∈ j.legs,
          e.key ∈ Dict.keys (owed (credits taxedDb₃.ledger taxedSale)) → 0 ≤ e.cents := h.legs
    exact absurd hall (by decide)

end ClientBridge
