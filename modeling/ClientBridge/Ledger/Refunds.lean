import ClientBridge.Ledger.Settlement
import ClientBridge.Earnings.Stages

/-!
# Refund journals

A refund returns cash and unwinds what its payment paid for, part by part.  The legs add up
to what is returned whatever the earlier refunds were (`net_refundLegs`), so `postRefund`
never raises; `reverseRefund` turns the journals around when Stripe fails the refund.
-/

namespace ClientBridge

open Bookkeeping Apportion

/-! ## What a refund unwinds -/

def fromPayments (ids : List Id) (j : LedgerJournal) : Bool :=
  match j.info.source with
  | some (.payment id) => decide (id ∈ ids)
  | _ => false

/-- The succeeded refunds of a payment other than this one. -/
def earlierRefunds (db : Db) (original : Payment) (refundId : Id) : List Id :=
  ((db.liveRefunds original.id).filter fun q => decide (q.id ≠ refundId)).map (·.id)

/-- The tip's pro rata part of a refund; the last refund returns exactly what is left of it. -/
def tipReturned (db : Db) (original : Payment) (returned : Int) (refundId : Id) : Int :=
  if original.tip.cents ≤ 0 then 0
  else
    let earlier := earlierRefunds db original refundId
    let counts := fun j : LedgerJournal => decide (j.info.event = .refund) && fromPayments earlier j
    let priorCash := -db.ledger.sum fun j e => counts j && e.key.category.isCash
    let priorTip := db.ledger.sum fun j e => counts j && decide (e.key.category = .staffCost)
    let done := min original.amountCents (priorCash + returned)
    original.tip.cents * done / original.amountCents - priorTip

/-- The journal a payment's credits stand in: its invoice's, else its own. -/
def basisRef (original : Payment) : Ref :=
  match original.invoiceId with
  | some invoiceId => .invoice invoiceId
  | none => .payment original.id

/-- The refunds that unwind the same journal, other than this one. -/
def unwindingRefunds (db : Db) (original : Payment) (refundId : Id) : List Id :=
  (db.payments.filter fun q =>
    decide (q.kind = .refund ∧ q.status = .succeeded ∧ q.id ≠ refundId) &&
      if original.invoiceId.isSome then decide (q.invoiceId = original.invoiceId)
      else decide (q.parentPaymentId = some original.id)).map (·.id)

/-- The payments of the same journal that a lost dispute took back. -/
def lostPayments (db : Db) (original : Payment) : List Id :=
  (db.payments.filter fun q =>
    decide (q.kind ≠ .refund) &&
      db.ledger.any (fun j => lostJournal j && decide (j.info.source = some (.payment q.id))) &&
      if original.invoiceId.isSome then decide (q.invoiceId = original.invoiceId)
      else decide (q.id = original.id)).map (·.id)

/-- A journal that unwound part of the same credits before. -/
def unwinds (db : Db) (original : Payment) (refundId : Id) (j : LedgerJournal) : Bool :=
  (decide (j.info.event = .refund) && fromPayments (unwindingRefunds db original refundId) j) ||
    (decide (j.info.event = .dispute) && fromPayments (lostPayments db original) j)

/-- The credit legs of a payment's basis, in the order they were booked. -/
def credits (L : Ledger) (original : Payment) : List Leg :=
  (L.filter fun j => decide (j.ref = basisRef original)).flatMap fun j =>
    j.legs.filter fun e => e.key.category.isUnwound && decide (e.cents < 0)

/-- A gift card or package gives back only what it still holds; the used part is spent. -/
def withinHolding (L : Ledger) (key : AccountKey) (cents : Int) : Int :=
  match key.owner with
  | .giftCard _ | .package _ => min cents (max 0 (-balance L key))
  | _ => cents

/-- What was credited to each account of the basis. -/
def owed (credits : List Leg) : List (AccountKey × Int) :=
  Dict.collect (credits.map fun e => (e.key, -e.cents))

def priorUnwound (db : Db) (original : Payment) (refundId : Id) (key : AccountKey) : Int :=
  db.ledger.sum fun j e => unwinds db original refundId j && decide (e.key = key)

/-- Each credit leg's share still to unwind, the rounding on the largest one. -/
def unwindShares (owed : List (AccountKey × Int)) (prior : AccountKey → Int) (base returned : Int) :
    List Int :=
  let unwound := (owed.map fun x => prior x.1).sum
  let done := min (unwound + returned) base
  let shares := owed.map fun x => x.2 * done / base - prior x.1
  let short := done - unwound - shares.sum
  addAt shares (largest (owed.map (·.2))) short

/-- The legs that unwind the credits (`_unwind`). -/
def unwind (db : Db) (original : Payment) (refundId : Id) (credits : List Leg) (base returned : Int) :
    List Leg :=
  let accounts := owed credits
  let parts := unwindShares accounts (priorUnwound db original refundId) base returned
  let legs := List.zipWith (fun x cents =>
    (⟨x.1, withinHolding db.ledger x.1 cents, none⟩ : Leg)) accounts parts
  -- money returned beyond what the sale still carries was lost twice, never a negative sale
  let lost := returned - net legs
  if 0 < lost then legs ++ [leg .business .loss lost] else legs

def tipLegs (tip : Int) : List Leg := if tip = 0 then [] else [leg .business .staffCost tip]

/-- What returning `returned` of a payment unwinds, part by part (the credit note's split). -/
def refundLegs (db : Db) (original : Payment) (returned : Int) (refundId : Id) (unapplied : Bool) :
    List Leg :=
  let credits := credits db.ledger original
  let tip := tipReturned db original returned refundId
  let base := -net credits
  -- the payment never paid the invoice off, so only the receivable it credited comes back
  if unapplied then leg (payer original.clientId) .receivable (returned - tip) :: tipLegs tip
  else if base ≤ 0 then leg .business .revenue (returned - tip) :: tipLegs tip
  else unwind db original refundId credits base (returned - tip) ++ tipLegs tip

def refundPosting (db : Db) (refund original : Payment) (unapplied : Bool) : Posting where
  event := .refund
  ref := .refund refund.id
  legs := leg .business (cashCategory original) (-refund.amountCents) ::
    refundLegs db original refund.amountCents refund.id unapplied
  source := some (.payment refund.id)
  subject := some (settlement db original).1

def tipOf (legs : List Leg) : Int := sumOf (fun e => decide (e.key.category = .staffCost)) legs

/-- Who gives a returned tip back, and how much. -/
def tipsBack (original : Payment) (tip : Int) : List (Id × Int) :=
  List.zip (original.tip.split.map (·.1)) (allocate tip (original.tip.split.map (·.2)))

/-- Return the money and unwind what it paid for, pro rata. -/
def postRefund (db : Db) (refund original : Payment) (unapplied : Bool) : Except Error Db := do
  let legs := refundLegs db original refund.amountCents refund.id unapplied
  let tip := tipOf legs
  let L ← post db.ledger (refundPosting db refund original unapplied)
  if 0 < tip then
    let L ← postTips L original (settlement db original).1 (.tip refund.id) (-1) refund.id
      (tipsBack original tip)
    return db.withLedger L
  else return db.withLedger L

def feeReturnPosting (payment : Payment) (refundId : Id) (app : Int) : Posting where
  event := .fee
  ref := .feeReturn refundId
  legs := [
    leg .business .platformFee (-app),
    leg .business .stripe app,
    leg .platform .stripe (-app),
    leg .platform .feeRevenue app]
  source := some (.payment payment.id)

/-- The application fee booked for a charge. -/
def applicationFee (L : Ledger) (paymentId : Id) : Int :=
  L.sum fun j e => decide (j.ref = .fee paymentId) &&
    decide (e.key.category = .platformFee ∧ e.key.owner = .business)

/-- Our application fee goes back to the business with a refund we made for our own reasons. -/
def postFeeReturn (db : Db) (payment : Payment) (refundId : Id) : Except Error Db := do
  let app := applicationFee db.ledger payment.id
  if app ≤ 0 then return db
  else
    let L ← post db.ledger (feeReturnPosting payment refundId app)
    return db.withLedger L

/-- A returned tip goes back to its member, unless it was cancelled outright. -/
def reverseTip (L : Ledger) (refundId staffId : Id) : Except Error Ledger :=
  match L.find (.tip refundId staffId) with
  | none => .ok L
  | some tip =>
    if L.has (.earningReversal tip.id) then .ok L
    else reverse L tip (.failed (.tip refundId staffId)) .tip (some (.payment refundId))
      { basis := some .tip }

def reverseRefundJournal (L : Ledger) (refundId : Id) : Except Error Ledger :=
  match L.find (.refund refundId) with
  | none => .ok L
  | some journal =>
    -- reports join payments on the source, so keep the refund's
    reverse L journal (.failed (.refund refundId)) .refund (some (.payment refundId)) {}

/-- Stripe failed a refund it had marked succeeded: the money is back, so undo its journals. -/
def reverseRefund (db : Db) (refund original : Payment) : Except Error Db := do
  let L ← reverseRefundJournal db.ledger refund.id
  let L ← (original.tip.split.map (·.1)).foldlM (fun L staffId => reverseTip L refund.id staffId) L
  return db.withLedger L

/-- A failed refund's returned tip that no pay has settled is cancelled, not offset. -/
def cancelReturnedTip (L : Ledger) (refundId staffId : Id) : Except Error Ledger :=
  match L.find (.tip refundId staffId) with
  | none => .ok L
  | some journal =>
    match loadEarning L journal.id with
    | none => .ok L
    | some tip => do
      if tip.status = .pending ∨ tip.status = .approved then
        let L ← if tip.status = .approved then moveEarning L tip .unapprove {} else .ok L
        reversePlain L journal (.earningReversal journal.id)
      else return L

def cancelReturnedTips (db : Db) (refund original : Payment) : Except Error Db := do
  let L ← (original.tip.split.map (·.1)).foldlM
    (fun L staffId => cancelReturnedTip L refund.id staffId) db.ledger
  return db.withLedger L

/-! ## The legs add up to what is returned -/

theorem withinHolding_le (L : Ledger) (key : AccountKey) (cents : Int) :
    withinHolding L key cents ≤ cents := by
  unfold withinHolding
  split
  · exact min_le_left _ _
  · exact min_le_left _ _
  · exact le_refl cents

theorem length_unwindShares (owed : List (AccountKey × Int)) (prior : AccountKey → Int)
    (base returned : Int) : (unwindShares owed prior base returned).length = owed.length := by
  simp [unwindShares]

/-- The shares together are what is still to unwind. -/
theorem sum_unwindShares {owed : List (AccountKey × Int)} (h : owed ≠ [])
    (prior : AccountKey → Int) (base returned : Int) :
    (unwindShares owed prior base returned).sum =
      min ((owed.map fun x => prior x.1).sum + returned) base - (owed.map fun x => prior x.1).sum := by
  have hl : largest (owed.map (·.2)) < (owed.map (·.2)).length := largest_lt (by simpa using h)
  simp only [unwindShares]
  rw [sum_addAt (by simpa using hl)]
  omega

theorem owed_eq_nil_iff (credits : List Leg) : owed credits = [] ↔ credits = [] := by
  constructor
  · intro h
    by_contra hne
    obtain ⟨e, credits', rfl⟩ := List.exists_cons_of_ne_nil hne
    have hm : e.key ∈ Dict.keys (owed (e :: credits')) :=
      (Dict.mem_keys_collect _ _).2 (by simp [Dict.keys])
    rw [h] at hm
    cases hm
  · rintro rfl
    rfl

theorem net_legs_le (L : Ledger) (accounts : List (AccountKey × Int)) (parts : List Int)
    (hl : parts.length = accounts.length) :
    net (List.zipWith (fun x cents => (⟨x.1, withinHolding L x.1 cents, none⟩ : Leg)) accounts parts) ≤
      parts.sum := by
  induction accounts generalizing parts with
  | nil =>
    cases parts with
    | nil => simp
    | cons p parts => simp at hl
  | cons x accounts ih =>
    cases parts with
    | nil => simp at hl
    | cons p parts =>
      have h := ih parts (by simpa using hl)
      have hw := withinHolding_le L x.1 p
      simp only [List.zipWith_cons_cons, net_cons, List.sum_cons]
      omega

/-- What is unwound and what is lost make up what is returned. -/
theorem net_unwind (db : Db) (original : Payment) (refundId : Id) {credits : List Leg}
    (h : credits ≠ []) (base returned : Int) :
    net (unwind db original refundId credits base returned) = returned := by
  have ho : owed credits ≠ [] := fun e => h ((owed_eq_nil_iff credits).1 e)
  have hs := sum_unwindShares ho (priorUnwound db original refundId) base returned
  have hle := net_legs_le db.ledger (owed credits)
    (unwindShares (owed credits) (priorUnwound db original refundId) base returned)
    (length_unwindShares _ _ _ _)
  simp only [unwind]
  split
  · rw [net_append]
    simp [leg]
  · omega

theorem net_tipLegs (tip : Int) : net (tipLegs tip) = tip := by
  unfold tipLegs
  split
  · next h => simp [h]
  · simp [leg]

theorem net_refundLegs (db : Db) (original : Payment) (returned : Int) (refundId : Id)
    (unapplied : Bool) : net (refundLegs db original returned refundId unapplied) = returned := by
  simp only [refundLegs]
  split
  · rw [net_cons, net_tipLegs]; simp [leg]
  · split
    · rw [net_cons, net_tipLegs]; simp [leg]
    · next hb =>
      rw [net_append, net_tipLegs, net_unwind _ _ _ (by rintro h; rw [h] at hb; simp at hb)]
      omega

theorem net_refundPosting (db : Db) (refund original : Payment) (unapplied : Bool) :
    net (refundPosting db refund original unapplied).legs = 0 := by
  simp only [refundPosting, net_cons, net_refundLegs, leg]
  omega

/-- A refund writes its journal and the tip journals that take its tip back; it never raises. -/
theorem postRefund_eq (db : Db) (refund original : Payment) (unapplied : Bool) :
    postRefund db refund original unapplied = .ok (db.withLedger (
      let q := refundPosting db refund original unapplied
      let tip := tipOf (refundLegs db original refund.amountCents refund.id unapplied)
      let L := db.ledger.write q.ref q.info q.written
      if 0 < tip then
        writeTips original (settlement db original).1 (.tip refund.id) (-1) refund.id L
          (tipsBack original tip)
      else L)) := by
  simp only [postRefund, post_eq (net_refundPosting db refund original unapplied), bind, Except.bind,
    postTips_eq]
  split <;> rfl

theorem net_feeReturnPosting (payment : Payment) (refundId : Id) (app : Int) :
    net (feeReturnPosting payment refundId app).legs = 0 := by simp [feeReturnPosting, leg]

theorem postFeeReturn_grows (db : Db) (payment : Payment) (refundId : Id) :
    ∃ L', postFeeReturn db payment refundId = .ok (db.withLedger L') ∧
      Grows (fun r => r = .feeReturn refundId) db.ledger L' := by
  unfold postFeeReturn
  dsimp only
  split
  · exact ⟨db.ledger, rfl, Grows.refl _ _⟩
  · obtain ⟨L', h, hg⟩ := post_grows (P := fun r => r = Ref.feeReturn refundId)
      (net_feeReturnPosting payment refundId (applicationFee db.ledger payment.id)) db.ledger rfl
    exact ⟨L', by rw [h]; rfl, hg⟩

/-- The references a refund's journals are written under. -/
def isRefundRef (refundId : Id) (r : Ref) : Prop := r = .refund refundId ∨ ∃ s, r = .tip refundId s

theorem postRefund_grows (db : Db) (refund original : Payment) (unapplied : Bool) :
    ∃ L', postRefund db refund original unapplied = .ok (db.withLedger L') ∧
      Grows (isRefundRef refund.id) db.ledger L' := by
  refine ⟨_, postRefund_eq db refund original unapplied, ?_⟩
  dsimp only
  have hw := grows_write (P := isRefundRef refund.id) (.inl rfl) db.ledger
    (refundPosting db refund original unapplied).info (refundPosting db refund original unapplied).written
  split
  · exact hw.trans ((grows_writeTips original _ (.tip refund.id) (-1) refund.id _ _).mono fun r h => .inr h)
  · exact hw

/-- The shares a refund takes back. -/
def returnedShares (original : Payment) (tip : Int) : List (Id × Int) :=
  if 0 < tip then postedShares (fun _ => false) (tipsBack original tip) else []

/-- A refund booked for the first time puts its journal and the returned tips on the accounts. -/
theorem onAccounts_postRefund {db db' : Db} {refund original : Payment} {unapplied : Bool}
    (h : postRefund db refund original unapplied = .ok db') {R : Ref → Bool}
    (hR : ∀ r, isRefundRef refund.id r → R r = true)
    (hnew : ∀ r, isRefundRef refund.id r → db.ledger.has r = false) (q : AccountKey → Bool) :
    onAccounts db'.ledger R q =
      onAccounts db.ledger R q + keyed q (refundPosting db refund original unapplied).legs +
        ((returnedShares original
          (tipOf (refundLegs db original refund.amountCents refund.id unapplied))).map
            (tipEffect q (-1))).sum := by
  have htip : ∀ s, Ref.refund refund.id ≠ .tip refund.id s := by simp
  have htaken : (fun s => (db.ledger.write (.refund refund.id)
      (refundPosting db refund original unapplied).info
      (refundPosting db refund original unapplied).written).has (.tip refund.id s)) = fun _ => false := by
    funext s
    rw [Book.has_write_of_ne (htip s), hnew _ (.inr ⟨s, rfl⟩)]
  have hp : (refundPosting db refund original unapplied).ref = .refund refund.id := rfl
  have hpost := onAccounts_posted db.ledger R q (refundPosting db refund original unapplied)
  rw [hp, hnew _ (.inl rfl), hR _ (.inl rfl)] at hpost
  rw [postRefund_eq] at h
  cases h
  rw [Db.ledger_withLedger]
  dsimp only
  rw [hp]
  split
  · next ht =>
    rw [onAccounts_writeTips (fun s => hR _ (.inr ⟨s, rfl⟩)) (fun a b e => by simpa using e) (by decide),
      htaken, hpost, returnedShares, if_pos ht]
    simp
  · next ht =>
    rw [hpost, returnedShares, if_neg ht]
    simp

/-! ## Unwinding everything -/

theorem total_owed (credits : List Leg) : Dict.total (owed credits) = -net credits := by
  rw [owed, Dict.total_collect]
  induction credits with
  | nil => rfl
  | cons e credits ih => rw [List.map_cons, Dict.total_cons, ih, net_cons]; omega

theorem nodup_owed (credits : List Leg) : (Dict.keys (owed credits)).Nodup := Dict.nodup_collect _

theorem mem_owed {L : Ledger} {original : Payment} {x : AccountKey × Int}
    (h : x ∈ owed (credits L original)) : x.1.category.isUnwound = true := by
  have hk := (Dict.mem_keys_collect _ _).1 (Dict.mem_keys h)
  simp only [Dict.keys, List.map_map, List.mem_map, Function.comp_apply] at hk
  obtain ⟨e, he, hx⟩ := hk
  rw [← hx]
  obtain ⟨j, -, he⟩ := List.mem_flatMap.1 he
  have hp := (List.mem_filter.1 he).2
  rw [Bool.and_eq_true] at hp
  exact hp.1

/-- A refund's legs: the credits it unwinds, a loss or the receivable, and the tip. -/
theorem refundLegs_split (db : Db) (original : Payment) (returned : Int) (refundId : Id) (unapplied : Bool) :
    ∃ zs, refundLegs db original returned refundId unapplied =
        zs ++ tipLegs (tipReturned db original returned refundId) ∧
      ∀ e ∈ zs, e.key.category.isUnwound = true ∨ e.key.category = .loss ∨
        unapplied = true ∧ e.key.category = .receivable := by
  unfold refundLegs
  dsimp only
  split
  · next hun =>
    refine ⟨[_], rfl, fun e he => ?_⟩
    rw [List.mem_singleton.1 he]
    exact .inr (.inr ⟨hun, rfl⟩)
  · split
    · refine ⟨[_], rfl, fun e he => ?_⟩
      rw [List.mem_singleton.1 he]
      exact .inl rfl
    · refine ⟨_, rfl, fun e he => ?_⟩
      have hlegs : ∀ parts : List Int, ∀ e ∈ List.zipWith (fun x cents =>
          (⟨x.1, withinHolding db.ledger x.1 cents, none⟩ : Leg)) (owed (credits db.ledger original)) parts,
          e.key.category.isUnwound = true := by
        intro parts e he
        rw [← List.map_uncurry_zip_eq_zipWith] at he
        obtain ⟨⟨x, cents⟩, hx, rfl⟩ := List.mem_map.1 he
        exact mem_owed (List.of_mem_zip hx).1
      unfold unwind at he
      dsimp only at he
      split at he
      · rcases List.mem_append.1 he with he | he
        · exact .inl (hlegs _ e he)
        · rw [List.mem_singleton.1 he]
          exact .inr (.inl rfl)
      · exact .inl (hlegs _ e he)

theorem credits_neg {L : Ledger} {original : Payment} {e : Leg} (h : e ∈ credits L original) :
    e.cents < 0 := by
  obtain ⟨j, -, he⟩ := List.mem_flatMap.1 h
  have hp := (List.mem_filter.1 he).2
  rw [Bool.and_eq_true] at hp
  exact of_decide_eq_true hp.2

theorem credits_eq_nil {L : Ledger} {original : Payment} (h : 0 ≤ net (credits L original)) :
    credits L original = [] := by
  have hneg : ∀ legs : List Leg, (∀ e ∈ legs, e.cents < 0) → net legs ≤ 0 ∧ (0 ≤ net legs → legs = []) := by
    intro legs hl
    induction legs with
    | nil => simp
    | cons e legs ih =>
      have he := hl e List.mem_cons_self
      have hle := (ih fun e' he' => hl e' (List.mem_cons_of_mem _ he')).1
      rw [net_cons]
      exact ⟨by omega, fun h0 => by omega⟩
  exact (hneg _ fun e he => credits_neg he).2 h

theorem owed_nonneg {L : Ledger} {original : Payment} : ∀ x ∈ owed (credits L original), 0 ≤ x.2 := by
  intro x hx
  rw [← Dict.get_of_mem (nodup_owed _) hx, owed, Dict.get_collect]
  refine List.sum_nonneg fun n hn => ?_
  obtain ⟨y, hy, rfl⟩ := List.mem_map.1 hn
  obtain ⟨e, he, rfl⟩ := List.mem_map.1 (List.mem_of_mem_filter hy)
  have hc := credits_neg he
  simp only
  omega

/-- What the accounts unwind together when the whole basis is done: what is left of each. -/
theorem unwindShares_whole {owed : List (AccountKey × Int)} {prior : AccountKey → Int}
    {base returned : Int} (hbase : 0 < base) (htotal : Dict.total owed = base)
    (hdone : (owed.map fun x => prior x.1).sum + returned = base) :
    unwindShares owed prior base returned = owed.map fun x => x.2 - prior x.1 := by
  have hshare : ∀ x : AccountKey × Int, x.2 * base / base - prior x.1 = x.2 - prior x.1 := by
    intro x
    rw [Int.mul_ediv_cancel _ (by omega)]
  have hsum : (owed.map fun x => x.2 - prior x.1).sum = base - (owed.map fun x => prior x.1).sum := by
    refine eq_sub_of_add_eq ?_
    rw [← List.sum_map_add, ← htotal, Dict.total]
    simp
  simp only [unwindShares, hdone, min_self, hshare, hsum, Int.sub_self]
  exact addAt_zero _ _

/-- A gift card or a package: what it holds bounds what it gives back. -/
def Owner.holds : Owner → Bool
  | .giftCard _ | .package _ => true
  | _ => false

/-- The largest credit's part of what is done, the rounding of all the others on it. -/
def largestDone (owed : List (AccountKey × Int)) (base done credit : Int) : Int :=
  credit * done / base + (done - (owed.map fun x => x.2 * done / base).sum)

/-- The rounding that lands on the largest credit fits in it, if it is one that holds a balance. -/
def RoundingFits (owed : List (AccountKey × Int)) (prior : AccountKey → Int) (base returned : Int) : Prop :=
  ∀ x, owed[largest (owed.map (·.2))]? = some x → x.1.owner.holds = true →
    largestDone owed base ((owed.map fun x => prior x.1).sum + returned) x.2 ≤ max x.2 (prior x.1)

section
variable {accounts : List (AccountKey × Int)} {prior : AccountKey → Int} {base returned : Int}
  (hbase : 0 < base) (hnonneg : ∀ x ∈ accounts, 0 ≤ x.2)
  (hdone : (accounts.map fun x => prior x.1).sum + returned ≤ base)
  (hfits : RoundingFits accounts prior base returned)
include hbase hnonneg hdone hfits

/-- Then no part is more than what its account still holds. -/
theorem unwindShares_le {i : Nat} {x : AccountKey × Int} (hx : accounts[i]? = some x)
    (hholds : x.1.owner.holds = true) {cents : Int}
    (hc : (unwindShares accounts prior base returned)[i]? = some cents) :
    cents ≤ max 0 (x.2 - prior x.1) := by
  set done := (accounts.map fun x => prior x.1).sum + returned with hd
  have hmin : min done base = done := min_eq_left hdone
  have hshare : x.2 * done / base ≤ x.2 := by
    have hx0 := hnonneg x (List.mem_of_getElem? hx)
    refine Int.le_of_lt_add_one (Int.ediv_lt_of_lt_mul hbase ?_)
    have hm := Int.mul_le_mul_of_nonneg_left hdone hx0
    rw [Int.add_mul, Int.one_mul]
    omega
  simp only [unwindShares, ← hd, hmin, addAt, List.getElem?_modify, List.getElem?_map, hx,
    Option.map_some] at hc
  by_cases hi : largest (accounts.map (·.2)) = i
  · have hf := hfits x (hi ▸ hx) hholds
    have hsum : (accounts.map fun x => x.2 * done / base - prior x.1).sum =
        (accounts.map fun x => x.2 * done / base).sum - (accounts.map fun x => prior x.1).sum := by
      refine eq_sub_of_add_eq ?_
      rw [← List.sum_map_add]
      simp
    simp only [hi, if_true, hsum, Option.map_eq_map, Option.map_some, Option.some.injEq] at hc
    unfold largestDone at hf
    rw [← hd] at hf
    omega
  · simp only [hi, if_false, Option.map_eq_map, Option.map_some, Option.some.injEq] at hc
    omega

/-- So what is unwound is not cut, and nothing is lost. -/
theorem unwindLegs_uncut {L : Ledger}
    (hunspent : ∀ x ∈ accounts, x.1.owner.holds = true → -balance L x.1 = x.2 - prior x.1) :
    List.zipWith (fun x cents => (⟨x.1, withinHolding L x.1 cents, none⟩ : Leg)) accounts
        (unwindShares accounts prior base returned) =
      List.zipWith (fun x cents => ⟨x.1, cents, none⟩) accounts (unwindShares accounts prior base returned) := by
  refine List.ext_getElem? fun i => ?_
  rw [List.getElem?_zipWith, List.getElem?_zipWith]
  cases hx : accounts[i]? with
  | none => rfl
  | some x =>
    cases hc : (unwindShares accounts prior base returned)[i]? with
    | none => rfl
    | some cents =>
      dsimp only
      congr 2
      cases hh : x.1.owner.holds with
      | false =>
        unfold withinHolding
        split <;> simp_all [Owner.holds]
      | true =>
        have hle := unwindShares_le hbase hnonneg hdone hfits hx hh hc
        have hu := hunspent x (List.mem_of_getElem? hx) hh
        unfold withinHolding
        split
        · rw [hu]; exact min_eq_left hle
        · rw [hu]; exact min_eq_left hle
        · rfl

end

theorem net_zipWith (accounts : List (AccountKey × Int)) (parts : List Int)
    (hl : parts.length = accounts.length) :
    net (List.zipWith (fun x cents => (⟨x.1, cents, none⟩ : Leg)) accounts parts) = parts.sum := by
  induction accounts generalizing parts with
  | nil => simp_all
  | cons x accounts ih =>
    cases parts with
    | nil => simp at hl
    | cons p parts =>
      rw [List.zipWith_cons_cons, net_cons, ih parts (by simpa using hl), List.sum_cons]

/-- Legs on the accounts, account by account. -/
theorem sum_keyed {keys : List AccountKey} (hk : keys.Nodup) {legs : List Leg}
    (hl : ∀ e ∈ legs, e.key ∈ keys) :
    (keys.map fun key => keyed (fun k => decide (k = key)) legs).sum = net legs := by
  have hone : ∀ (ks : List AccountKey), ks.Nodup → ∀ (a : AccountKey) (n : Int),
      (ks.map fun key => if decide (a = key) then n else 0).sum = if a ∈ ks then n else 0 := by
    intro ks hks a n
    induction ks with
    | nil => rfl
    | cons k ks ih =>
      obtain ⟨hn, hks⟩ := List.nodup_cons.1 hks
      rw [List.map_cons, List.sum_cons, ih hks]
      by_cases ha : a = k
      · subst ha
        simp [hn]
      · simp [ha]
  induction legs with
  | nil => simp
  | cons e legs ih =>
    simp only [keyed_cons]
    rw [List.sum_map_add, ih fun e' he' => hl e' (List.mem_cons_of_mem _ he'), hone keys hk,
      if_pos (hl e List.mem_cons_self), net_cons]

/-- When no part is cut the legs are the parts. -/
theorem unwind_eq (db : Db) (original : Payment) (refundId : Id) {credits : List Leg} {returned : Int}
    (hbase : 0 < -net credits) (hnonneg : ∀ x ∈ owed credits, 0 ≤ x.2)
    (hdone : ((owed credits).map fun x => priorUnwound db original refundId x.1).sum + returned ≤ -net credits)
    (hfits : RoundingFits (owed credits) (priorUnwound db original refundId) (-net credits) returned)
    (hunspent : ∀ x ∈ owed credits, x.1.owner.holds = true →
      -balance db.ledger x.1 = x.2 - priorUnwound db original refundId x.1) :
    unwind db original refundId credits (-net credits) returned =
      List.zipWith (fun x cents => (⟨x.1, cents, none⟩ : Leg)) (owed credits)
        (unwindShares (owed credits) (priorUnwound db original refundId) (-net credits) returned) := by
  have hne : owed credits ≠ [] := by
    intro h
    rw [(owed_eq_nil_iff credits).1 h] at hbase
    simp at hbase
  have hsum := sum_unwindShares hne (priorUnwound db original refundId) (-net credits) returned
  have huncut := unwindLegs_uncut hbase hnonneg hdone hfits hunspent
  have hnet := net_zipWith (owed credits) _
    (length_unwindShares (owed credits) (priorUnwound db original refundId) (-net credits) returned)
  simp only [unwind, huncut, hnet, hsum]
  rw [if_neg (by omega)]

end ClientBridge
