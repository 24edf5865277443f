import ClientBridge.Ledger.Journals
import ClientBridge.Library.Runs

/-!
# Stripe payouts

`recordPayout` and `failPayout` are what the webhook dispatch runs for `payout.created`,
`payout.paid`, `payout.failed` and `payout.canceled`.  Stripe delivers these in any order
and more than once.  `Phase` is what a payout means to the business; the ledger after any
events is the ledger before them followed by the journals of one phase (`handle_phase`), so

    position of the payout = position of the phase reached         (payout_events_converge)
-/

namespace ClientBridge

open Bookkeeping

inductive PayoutKind where
  | created | paid | failed | canceled
  deriving DecidableEq, Repr

inductive PayoutStatus where
  | pending | inTransit | paid | failed | canceled
  deriving DecidableEq, Repr

/-- The fields of a Stripe payout the handlers read; `amount` is `none` when it is no integer. -/
structure PayoutData where
  id : Id
  amount : Option Int
  currency : Option String
  status : PayoutStatus
  deriving DecidableEq, Repr

structure PayoutEvent where
  kind : PayoutKind
  data : PayoutData
  deriving DecidableEq, Repr

/-- The ledger, and the payouts audited as refused for their currency. -/
structure PayoutBooks where
  ledger : Ledger
  refused : List (Id × String × Int)

def businessCurrency : String := "CAD"

/-- Stripe's balance drops when it creates the payout; the money is in transit until arrival. -/
def postPayout (L : Ledger) (payoutId : Id) (amount : Int) : Except Error Ledger :=
  post L {
    event := .payout
    ref := .payout payoutId
    legs := [leg .business .transit amount, leg .business .stripe (-amount)]
    source := some (.stripePayout payoutId) }

/-- Deposited when Stripe says it was paid; never after a failure. -/
def arrivePayout (L : Ledger) (payoutId : Id) (amount : Int) : Except Error Ledger :=
  if (L.find (.failed (.payout payoutId))).isSome then .ok L
  else post L {
    event := .payout
    ref := .payoutPaid payoutId
    legs := [leg .business .bank amount, leg .business .transit (-amount)]
    source := some (.stripePayout payoutId) }

def failOne (L : Ledger) (ref : Ref) : Except Error Ledger :=
  match L.find ref with
  | some journal => reversePlain L journal (.failed ref)
  | none => .ok L

def failPayoutJournals (L : Ledger) (payoutId : Id) : Except Error Ledger := do
  let L ← failOne L (.payout payoutId)
  failOne L (.payoutPaid payoutId)

/-- A Stripe object in a currency the books don't take: audited once, never booked. -/
def refuseCurrency (s : PayoutBooks) (id : Id) (currency : String) (amount : Int) : PayoutBooks :=
  if s.refused.any fun r => r.1 = id then s
  else { s with refused := s.refused ++ [(id, currency, amount)] }

def PayoutData.currencyCode (d : PayoutData) : String :=
  match d.currency with
  | some c => c.toUpper
  | none => businessCurrency

def recordPayout (s : PayoutBooks) (d : PayoutData) (paid : Bool) : Except Error PayoutBooks :=
  match d.amount with
  | none => .ok s
  | some amount =>
    if d.currencyCode ≠ businessCurrency then .ok (refuseCurrency s d.id d.currencyCode amount)
    else do
      let L ← postPayout s.ledger d.id amount
      let L ← if paid || d.status = .paid then arrivePayout L d.id amount else .ok L
      return { s with ledger := L }

def failPayout (s : PayoutBooks) (d : PayoutData) : Except Error PayoutBooks := do
  -- so a retried `payout.created` stays reversed
  let s ← if (s.ledger.find (.payout d.id)).isSome then .ok s else recordPayout s d false
  let L ← failPayoutJournals s.ledger d.id
  return { s with ledger := L }

def handlePayout (s : PayoutBooks) (e : PayoutEvent) : Except Error PayoutBooks :=
  match e.kind with
  | .created => recordPayout s e.data false
  | .paid => recordPayout s e.data true
  | .failed | .canceled => failPayout s e.data

def handlePayouts (s : PayoutBooks) (evs : List PayoutEvent) : Except Error PayoutBooks :=
  evs.foldlM handlePayout s

/-! ## What a payout means -/

inductive Phase where
  | unknown | inTransit | arrived | returned | returnedAfterArrival
  deriving DecidableEq, Repr

/-- An event that reports the payout as paid. -/
def PayoutEvent.reportsPaid (e : PayoutEvent) : Bool := e.kind = .paid || e.data.status = .paid

def PayoutEvent.reportsFailure (e : PayoutEvent) : Bool := e.kind = .failed || e.kind = .canceled

/-- A report that Stripe created the payout, or that it was paid. -/
def Phase.record (paid : Bool) : Phase → Phase
  | .unknown | .inTransit => if paid then .arrived else .inTransit
  | φ => φ

def Phase.fail : Phase → Phase
  | .inTransit => .returned
  | .arrived => .returnedAfterArrival
  | φ => φ

def Phase.next (e : PayoutEvent) (φ : Phase) : Phase :=
  if e.reportsFailure then (if φ = .unknown then φ.record e.reportsPaid else φ).fail
  else φ.record e.reportsPaid

def Phase.isReturned : Phase → Bool
  | .returned | .returnedAfterArrival => true
  | _ => false

/-- After a failure the payout stays returned, whatever else is delivered. -/
theorem isReturned_next (e : PayoutEvent) (φ : Phase) :
    (φ.next e).isReturned = (φ.isReturned || e.reportsFailure) := by
  cases hf : e.reportsFailure <;> cases hp : e.reportsPaid <;> cases φ <;>
    simp [Phase.next, Phase.record, Phase.fail, Phase.isReturned, hf, hp]

theorem isReturned_foldl (evs : List PayoutEvent) (φ : Phase) :
    (evs.foldl (fun φ e => φ.next e) φ).isReturned = (φ.isReturned || evs.any (·.reportsFailure)) := by
  induction evs generalizing φ with
  | nil => simp
  | cons e evs ih => rw [List.foldl_cons, ih, isReturned_next, List.any_cons, Bool.or_assoc]

/-- Without a failure the phase only tells whether the payout was paid. -/
theorem foldl_next_of_no_failure (evs : List PayoutEvent) (φ : Phase) (hφ : φ.isReturned = false)
    (h : evs.any (·.reportsFailure) = false) :
    evs.foldl (fun φ e => φ.next e) φ =
      if φ = .arrived ∨ evs.any (·.reportsPaid) = true then .arrived
      else if evs = [] then φ else .inTransit := by
  induction evs generalizing φ with
  | nil => cases φ <;> simp
  | cons e evs ih =>
    rw [List.any_cons, Bool.or_eq_false_iff] at h
    have hn : (φ.next e).isReturned = false := by rw [isReturned_next, hφ, h.1]; rfl
    rw [List.foldl_cons, ih _ hn h.2]
    cases hp : e.reportsPaid <;> cases φ <;> simp_all [Phase.next, Phase.record, Phase.isReturned]

/-- What a payout leaves on the Stripe, transit and bank accounts. -/
structure Position where
  stripe : Int
  transit : Int
  bank : Int
  deriving DecidableEq, Repr

def Phase.position (amount : Int) : Phase → Position
  | .unknown | .returned | .returnedAfterArrival => ⟨0, 0, 0⟩
  | .inTransit => ⟨-amount, amount, 0⟩
  | .arrived => ⟨-amount, 0, amount⟩

/-! ## The journals of a phase -/

def isPayoutRef (payoutId : Id) (r : Ref) : Bool :=
  r = .payout payoutId || r = .payoutPaid payoutId || r = .failed (.payout payoutId) ||
    r = .failed (.payoutPaid payoutId)

/-- The part of an account that a payout's journals make up. -/
def payoutCents (L : Ledger) (payoutId : Id) (category : Category) : Int :=
  L.sum fun j e => isPayoutRef payoutId j.ref && decide (e.key = ⟨.business, category, .plain⟩)

def payoutPosition (L : Ledger) (payoutId : Id) : Position :=
  ⟨payoutCents L payoutId .stripe, payoutCents L payoutId .transit, payoutCents L payoutId .bank⟩

def createdJournal (n : Nat) (payoutId : Id) (amount : Int) : LedgerJournal :=
  ⟨n, .payout payoutId, ⟨.payout, some (.stripePayout payoutId), {}⟩,
    [leg .business .transit amount, leg .business .stripe (-amount)]⟩

def paidJournal (n : Nat) (payoutId : Id) (amount : Int) : LedgerJournal :=
  ⟨n, .payoutPaid payoutId, ⟨.payout, some (.stripePayout payoutId), {}⟩,
    [leg .business .bank amount, leg .business .transit (-amount)]⟩

def undone (n : Nat) (j : LedgerJournal) : LedgerJournal :=
  ⟨n, .failed j.ref, ⟨.reversal, some (.journal j.id), {}⟩, negate j.legs⟩

def payoutJournals (n : Nat) (payoutId : Id) (amount : Int) : Phase → Ledger
  | .unknown => []
  | .inTransit => [createdJournal n payoutId amount]
  | .arrived => [createdJournal n payoutId amount, paidJournal (n + 1) payoutId amount]
  | .returned => [createdJournal n payoutId amount, undone (n + 1) (createdJournal n payoutId amount)]
  | .returnedAfterArrival =>
    [createdJournal n payoutId amount, paidJournal (n + 1) payoutId amount,
      undone (n + 2) (createdJournal n payoutId amount),
      undone (n + 3) (paidJournal (n + 1) payoutId amount)]

/-- The ledger once a payout has reached a phase; a payout of nothing books nothing. -/
def ledgerAt (L : Ledger) (payoutId : Id) (amount : Int) (φ : Phase) : Ledger :=
  if amount = 0 then L else L ++ payoutJournals L.length payoutId amount φ

section
variable {L : Ledger} {p : Id} {a : Int} (hnew : ∀ r, isPayoutRef p r = true → L.has r = false)
include hnew

theorem payoutPosition_ledgerAt (φ : Phase) : payoutPosition (ledgerAt L p a φ) p = φ.position a := by
  have hL : ∀ c, payoutCents L p c = 0 := by
    intro c
    refine Book.sum_eq_zero_of_no_journal fun j hj e => ?_
    rw [Bool.and_eq_false_iff]
    left
    by_contra hne
    exact (L.has_false_iff j.ref).1 (hnew j.ref (by simpa using hne)) j hj rfl
  have hadd : ∀ (js : Ledger) (c : Category), payoutCents (L ++ js) p c = payoutCents js p c := by
    intro js c
    have := hL c
    unfold payoutCents at this ⊢
    rw [Book.sum_append, this, Int.zero_add]
  unfold ledgerAt
  split
  · next h0 => cases φ <;> simp [payoutPosition, hL, Phase.position, h0]
  · unfold payoutPosition
    rw [hadd, hadd, hadd]
    cases φ <;>
      simp [payoutCents, payoutJournals, createdJournal, paidJournal, undone, negate, isPayoutRef,
        leg, Phase.position]

theorem find_ledgerAt (h0 : a ≠ 0) (φ : Phase) {r : Ref} (hr : isPayoutRef p r = true) :
    (ledgerAt L p a φ).find r = (payoutJournals L.length p a φ).find r := by
  rw [ledgerAt, if_neg h0, Book.find_append_of_not_has (hnew r hr)]

theorem has_ledgerAt (h0 : a ≠ 0) (φ : Phase) {r : Ref} (hr : isPayoutRef p r = true) :
    (ledgerAt L p a φ).has r = (payoutJournals L.length p a φ).has r := by
  rw [← Book.find_isSome, ← Book.find_isSome, find_ledgerAt hnew h0 φ hr]

theorem find_of_zero (φ : Phase) {r : Ref} (hr : isPayoutRef p r = true) :
    (ledgerAt L p 0 φ).find r = none := by
  rw [ledgerAt, if_pos rfl]
  exact (L.find_eq_none_iff r).2 (hnew r hr)

omit hnew in
/-- A payout of nothing has no legs to write. -/
theorem post_zero (L : Ledger) (q : Posting) (hk : q.keepZero = false)
    (hq : ∀ l ∈ q.legs, l.cents = 0) : post L q = .ok L := by
  have hw : q.written = [] := by
    simp [Posting.written, hk, (nonzero_eq_nil_iff q.legs).2 hq]
  simp [post, hw]

theorem postPayout_ledgerAt (φ : Phase) :
    postPayout (ledgerAt L p a φ) p a = .ok (ledgerAt L p a (if φ = .unknown then .inTransit else φ)) := by
  by_cases h0 : a = 0
  · subst h0
    exact post_zero _ _ rfl (by simp [leg])
  · have hh : (ledgerAt L p a φ).has (.payout p) = _ :=
      has_ledgerAt hnew h0 φ (by simp [isPayoutRef])
    unfold postPayout post
    rw [hh]
    cases φ <;>
      simp [ledgerAt, h0, Posting.written, nonzero, leg, Book.has, payoutJournals, createdJournal,
        Posting.info]

theorem arrivePayout_ledgerAt (φ : Phase) (hφ : φ ≠ .unknown) :
    arrivePayout (ledgerAt L p a φ) p a = .ok (ledgerAt L p a (if φ = .inTransit then .arrived else φ)) := by
  by_cases h0 : a = 0
  · subst h0
    unfold arrivePayout
    rw [find_of_zero hnew φ (by simp [isPayoutRef])]
    exact post_zero _ _ rfl (by simp [leg])
  · unfold arrivePayout post
    rw [find_ledgerAt hnew h0 φ (by simp [isPayoutRef]), has_ledgerAt hnew h0 φ (by simp [isPayoutRef])]
    cases φ <;>
      simp_all [ledgerAt, Posting.written, nonzero, leg, Book.has, Book.find, payoutJournals,
        createdJournal, paidJournal, undone, Posting.info]

theorem failOne_of_none {js : Ledger} {r : Ref} (hr : isPayoutRef p r = true)
    (h : js.find r = none) : failOne (L ++ js) r = .ok (L ++ js) := by
  simp [failOne, Book.find_append_of_not_has (hnew r hr), h]

/-- A journal already turned around stays as it is. -/
theorem failOne_of_has {js : Ledger} {r : Ref} {j : LedgerJournal} (hr : isPayoutRef p r = true)
    (hj : js.find r = some j) (hn : net j.legs = 0) (hf : js.has (.failed r) = true) :
    failOne (L ++ js) r = .ok (L ++ js) := by
  have hf' : Book.has (L ++ js) (.failed r) = true := by rw [Book.has_append, hf, Bool.or_true]
  simp only [failOne, Book.find_append_of_not_has (hnew r hr), hj, reversePlain]
  rw [reverse_eq hn, Book.write_of_has hf']

theorem failOne_of_new {js : Ledger} {r : Ref} {j : LedgerJournal} (hr : isPayoutRef p r = true)
    (hr' : isPayoutRef p (.failed r) = true) (hj : js.find r = some j) (hn : net j.legs = 0)
    (hf : js.has (.failed r) = false) (hne : j.legs ≠ []) (hz : ∀ e ∈ j.legs, e.cents ≠ 0) :
    failOne (L ++ js) r = .ok (L ++ (js ++ [undone (L.length + js.length) j])) := by
  have hf' : Book.has (L ++ js) (.failed r) = false := by rw [Book.has_append, hnew _ hr', hf]; rfl
  have hw : nonzero (negate j.legs) = negate j.legs := by
    rw [nonzero_negate]
    congr 1
    exact List.filter_eq_self.2 fun e he => by simpa using hz e he
  have hne' : negate j.legs ≠ [] := by simpa [negate] using hne
  simp only [failOne, Book.find_append_of_not_has (hnew r hr), hj, reversePlain]
  rw [reverse_eq hn, hw, Book.write_of_new hf' _ hne', ← (Book.find_mem hj).2, List.length_append,
    List.append_assoc]
  rfl

/-- Both journals of a payout are turned around once, the deposit only if it was booked. -/
theorem failPayoutJournals_ledgerAt (φ : Phase) (hφ : φ ≠ .unknown) :
    failPayoutJournals (ledgerAt L p a φ) p = .ok (ledgerAt L p a φ.fail) := by
  have hc : isPayoutRef p (.payout p) = true := by simp [isPayoutRef]
  have hp : isPayoutRef p (.payoutPaid p) = true := by simp [isPayoutRef]
  have hcf : isPayoutRef p (.failed (.payout p)) = true := by simp [isPayoutRef]
  have hpf : isPayoutRef p (.failed (.payoutPaid p)) = true := by simp [isPayoutRef]
  unfold failPayoutJournals
  by_cases h0 : a = 0
  · subst h0
    simp only [ledgerAt, if_pos]
    rw [← List.append_nil L, failOne_of_none hnew hc rfl]
    exact failOne_of_none hnew hp rfl
  · have hnc : net (createdJournal L.length p a).legs = 0 := by simp [createdJournal, leg]
    have hnp : net (paidJournal (L.length + 1) p a).legs = 0 := by simp [paidJournal, leg]
    simp only [ledgerAt, if_neg h0]
    cases φ with
    | unknown => exact absurd rfl hφ
    | inTransit =>
      have h1 : (payoutJournals L.length p a .inTransit).find (.payout p) =
          some (createdJournal L.length p a) := by simp [payoutJournals, createdJournal, Book.find]
      rw [failOne_of_new hnew hc hcf h1 hnc (by simp [payoutJournals, createdJournal, Book.has])
        (by simp [createdJournal]) (by simp [createdJournal, leg, h0])]
      exact failOne_of_none hnew hp (by simp [payoutJournals, createdJournal, undone, Book.find])
    | arrived =>
      have h1 : (payoutJournals L.length p a .arrived).find (.payout p) =
          some (createdJournal L.length p a) := by simp [payoutJournals, createdJournal, Book.find]
      have h2 : Book.find (payoutJournals L.length p a .arrived ++
          [undone (L.length + 2) (createdJournal L.length p a)]) (.payoutPaid p) =
          some (paidJournal (L.length + 1) p a) := by
        simp [payoutJournals, createdJournal, paidJournal, undone, Book.find]
      rw [failOne_of_new hnew hc hcf h1 hnc
        (by simp [payoutJournals, createdJournal, paidJournal, Book.has])
        (by simp [createdJournal]) (by simp [createdJournal, leg, h0])]
      refine (failOne_of_new hnew hp hpf h2 hnp ?_ (by simp [paidJournal])
        (by simp [paidJournal, leg, h0])).trans rfl
      simp [payoutJournals, createdJournal, paidJournal, undone, Book.has]
    | returned =>
      have h1 : (payoutJournals L.length p a .returned).find (.payout p) =
          some (createdJournal L.length p a) := by
        simp [payoutJournals, createdJournal, undone, Book.find]
      rw [failOne_of_has hnew hc h1 hnc (by simp [payoutJournals, createdJournal, undone, Book.has])]
      exact failOne_of_none hnew hp (by simp [payoutJournals, createdJournal, undone, Book.find])
    | returnedAfterArrival =>
      have h1 : (payoutJournals L.length p a .returnedAfterArrival).find (.payout p) =
          some (createdJournal L.length p a) := by
        simp [payoutJournals, createdJournal, paidJournal, undone, Book.find]
      have h2 : (payoutJournals L.length p a .returnedAfterArrival).find (.payoutPaid p) =
          some (paidJournal (L.length + 1) p a) := by
        simp [payoutJournals, createdJournal, paidJournal, undone, Book.find]
      have h3 : ∀ r, r = Ref.payout p ∨ r = .payoutPaid p →
          (payoutJournals L.length p a .returnedAfterArrival).has (.failed r) = true := by
        rintro r (rfl | rfl) <;>
          simp [payoutJournals, createdJournal, paidJournal, undone, Book.has]
      rw [failOne_of_has hnew hc h1 hnc (h3 _ (.inl rfl))]
      exact failOne_of_has hnew hp h2 hnp (h3 _ (.inr rfl))

end

/-! ## Every order of events -/

/-- An event about payout `p` of `a` cents in the business's currency. -/
def PayoutEvent.isAbout (e : PayoutEvent) (p : Id) (a : Int) : Prop :=
  e.data.id = p ∧ e.data.amount = some a ∧ e.data.currencyCode = businessCurrency

section
variable {s : PayoutBooks} {L : Ledger} {p : Id} {a : Int}
  (hnew : ∀ r, isPayoutRef p r = true → L.has r = false)
include hnew

theorem recordPayout_ledgerAt (φ : Phase) (hs : s.ledger = ledgerAt L p a φ) (e : PayoutEvent)
    (he : e.isAbout p a) (paid : Bool) :
    recordPayout s e.data paid =
      .ok { s with ledger := ledgerAt L p a (φ.record (paid || e.data.status = .paid)) } := by
  obtain ⟨rfl, ha, hc⟩ := he
  have hstep : ∀ φ : Phase, (if φ = .unknown then Phase.inTransit else φ) ≠ .unknown := by
    intro φ; split <;> simp_all
  simp only [recordPayout, ha, hc, ne_eq, not_true_eq_false, if_false, hs,
    postPayout_ledgerAt hnew φ, bind, Except.bind]
  cases hp : (paid || decide (e.data.status = .paid))
  · cases φ <;> simp [Phase.record, pure, Except.pure]
  · simp only [if_true, arrivePayout_ledgerAt hnew _ (hstep φ)]
    cases φ <;> simp [Phase.record, pure, Except.pure]

theorem find_created_isSome (h0 : a ≠ 0) (φ : Phase) :
    ((ledgerAt L p a φ).find (.payout p)).isSome = decide (φ ≠ .unknown) := by
  rw [find_ledgerAt hnew h0 φ (by simp [isPayoutRef])]
  cases φ <;> simp [payoutJournals, createdJournal, Book.find]

theorem failPayout_ledgerAt (φ : Phase) (hs : s.ledger = ledgerAt L p a φ) (e : PayoutEvent)
    (he : e.isAbout p a) :
    failPayout s e.data = .ok { s with
      ledger := ledgerAt L p a (if φ = .unknown then φ.record (e.data.status = .paid) else φ).fail } := by
  have hrec := recordPayout_ledgerAt hnew φ hs e he false
  have hfail : ∀ φ : Phase, φ ≠ .unknown → failPayoutJournals (ledgerAt L p a φ) p =
      .ok (ledgerAt L p a φ.fail) := failPayoutJournals_ledgerAt hnew
  obtain rfl := he.1
  rw [Bool.false_or] at hrec
  unfold failPayout
  rw [hs]
  by_cases h0 : a = 0
  · -- nothing is booked for an empty payout, so every failure records it again
    subst h0
    have hL : ∀ φ, ledgerAt L e.data.id 0 φ = L := fun φ => if_pos rfl
    have h1 := hfail .inTransit (by simp)
    rw [hL] at h1
    rw [find_of_zero hnew φ (by simp [isPayoutRef])]
    simp [hrec, hL, h1, bind, Except.bind, pure, Except.pure]
  · rw [find_created_isSome hnew h0]
    by_cases hφ : φ = .unknown
    · have hne : φ.record (e.data.status = .paid) ≠ .unknown := by
        subst hφ; cases h : e.data.status <;> simp [Phase.record]
      simp [hφ, hrec, bind, Except.bind, pure, Except.pure]
      rw [← hφ, hfail _ hne]
    · simp [hφ, hs, hfail φ hφ, bind, Except.bind, pure, Except.pure]

/-- One event moves the ledger to the next phase of its payout. -/
theorem handle_phase (φ : Phase) (hs : s.ledger = ledgerAt L p a φ) (e : PayoutEvent)
    (he : e.isAbout p a) :
    handlePayout s e = .ok { s with ledger := ledgerAt L p a (φ.next e) } := by
  unfold handlePayout
  cases hk : e.kind with
  | created =>
    rw [recordPayout_ledgerAt hnew φ hs e he]
    simp [Phase.next, PayoutEvent.reportsFailure, PayoutEvent.reportsPaid, hk]
  | paid =>
    dsimp only
    rw [recordPayout_ledgerAt hnew φ hs e he]
    simp [Phase.next, PayoutEvent.reportsFailure, PayoutEvent.reportsPaid, hk]
  | failed =>
    dsimp only
    rw [failPayout_ledgerAt hnew φ hs e he]
    simp [Phase.next, PayoutEvent.reportsFailure, PayoutEvent.reportsPaid, hk]
  | canceled =>
    dsimp only
    rw [failPayout_ledgerAt hnew φ hs e he]
    simp [Phase.next, PayoutEvent.reportsFailure, PayoutEvent.reportsPaid, hk]

/-- The ledger after any events is the ledger of the phase they lead to. -/
theorem handlePayouts_phase (evs : List PayoutEvent) (hevs : ∀ e ∈ evs, e.isAbout p a) (φ : Phase)
    (hs : s.ledger = ledgerAt L p a φ) :
    handlePayouts s evs =
      .ok { s with ledger := ledgerAt L p a (evs.foldl (fun φ e => φ.next e) φ) } := by
  induction evs generalizing s φ with
  | nil => simp [handlePayouts, ← hs, pure, Except.pure]
  | cons e evs ih =>
    have h1 := handle_phase hnew φ hs e (hevs e List.mem_cons_self)
    have h2 : handlePayouts { s with ledger := ledgerAt L p a (φ.next e) } evs = _ :=
      ih (fun e' he' => hevs e' (List.mem_cons_of_mem _ he')) (φ.next e) rfl
    unfold handlePayouts at h2 ⊢
    rw [List.foldlM_cons, h1]
    exact h2

end

/-- **Payout events converge.**  Whatever the order and repetition of its events, a payout
ends with nothing if a failure was reported, else at the bank if it was reported paid, else
in transit if it was created at all. -/
theorem payout_events_converge (s : PayoutBooks) (p : Id) (a : Int) (evs : List PayoutEvent)
    (hnew : ∀ r, isPayoutRef p r = true → s.ledger.has r = false)
    (hevs : ∀ e ∈ evs, e.isAbout p a) :
    ∃ s', handlePayouts s evs = .ok s' ∧ payoutPosition s'.ledger p =
      if evs.any (·.reportsFailure) then ⟨0, 0, 0⟩
      else if evs.any (·.reportsPaid) then ⟨-a, 0, a⟩
      else if evs = [] then ⟨0, 0, 0⟩
      else ⟨-a, a, 0⟩ := by
  have h0 : s.ledger = ledgerAt s.ledger p a .unknown := by
    simp [ledgerAt, payoutJournals]
  refine ⟨_, handlePayouts_phase hnew evs hevs .unknown h0, ?_⟩
  simp only
  rw [payoutPosition_ledgerAt hnew]
  cases hf : evs.any (·.reportsFailure) with
  | true =>
    have := isReturned_foldl evs .unknown
    rw [hf, Bool.or_true] at this
    revert this
    cases evs.foldl (fun φ e => φ.next e) Phase.unknown <;> simp [Phase.isReturned, Phase.position]
  | false =>
    rw [foldl_next_of_no_failure evs .unknown rfl hf]
    cases hp : evs.any (·.reportsPaid) with
    | true => simp [Phase.position]
    | false => by_cases he : evs = [] <;> simp [he, Phase.position]

/-- A payout reported paid before its creation and failed in the end leaves nothing. -/
theorem payout_failed_after_arrival :
    ∃ s', handlePayouts ⟨[], []⟩
        [⟨.paid, "po_1", some 12500, none, .paid⟩, ⟨.created, "po_1", some 12500, none, .inTransit⟩,
          ⟨.failed, "po_1", some 12500, none, .failed⟩] = .ok s' ∧
      payoutPosition s'.ledger "po_1" = ⟨0, 0, 0⟩ :=
  payout_events_converge ⟨[], []⟩ "po_1" 12500 _ (fun _ _ => rfl) (by
    intro e he
    simp only [List.mem_cons, List.not_mem_nil, or_false] at he
    rcases he with rfl | rfl | rfl <;> exact ⟨rfl, rfl, rfl⟩)

/-- The kinds that came do not decide it: a creation that shows the payout as paid puts it at the bank. -/
theorem created_shown_paid : ¬ ∀ (s : PayoutBooks) (p : Id) (a : Int) (evs : List PayoutEvent),
    (∀ r, isPayoutRef p r = true → s.ledger.has r = false) → (∀ e ∈ evs, e.isAbout p a) →
    ∃ s', handlePayouts s evs = .ok s' ∧ payoutPosition s'.ledger p =
      if evs.any (·.reportsFailure) then ⟨0, 0, 0⟩
      else if evs.any (·.kind = .paid) then ⟨-a, 0, a⟩
      else if evs = [] then ⟨0, 0, 0⟩
      else ⟨-a, a, 0⟩ := by
  intro h
  have habout : ∀ e ∈ [(⟨.created, "po_1", some 12500, none, .paid⟩ : PayoutEvent)], e.isAbout "po_1" 12500 := by
    intro e he
    obtain rfl := List.mem_singleton.1 he
    exact ⟨rfl, rfl, rfl⟩
  obtain ⟨s', hrun, hposition⟩ := h ⟨[], []⟩ "po_1" 12500 _ (fun _ _ => rfl) habout
  obtain rfl := Except.ok.inj (show _ = Except.ok s' from hrun)
  revert hposition
  decide

end ClientBridge
