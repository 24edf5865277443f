import ClientBridge.Library.Book
import ClientBridge.Tax.Engine

/-!
# The ledger: accounts, journals, `post` and `reverse`

One business's books, in the one currency it keeps them in.  A ledger is a
`Bookkeeping.Book` over account keys: the rows of the `entries` table grouped by journal,
numbered in the order they were written.  References are the colon-joined strings the
services build; ids are prefixed ULIDs with no colon in them, so a reference and its parts
determine each other and `Ref` keeps the parts.
-/

namespace ClientBridge

open Bookkeeping

abbrev Id := String

inductive Owner where
  | business
  | client (id : Id)
  | staff (id : Id)
  | platform
  | giftCard (id : Id)
  | package (id : Id)
  deriving DecidableEq, Repr

inductive Category where
  | stripe | bank | transit | cash | receivable | tax | giftCard | deposit | deferred | payable
  | revenue | feeRevenue | processingFee | platformFee | staffCost | itc | loss
  deriving DecidableEq, Repr

inductive EntryEvent where
  | invoice | sale | payment | fee | refund | dispute | payout | redemption | consumption | forfeit
  | application | breakage | remittance | earning | approval | staffPayment | reversal | tip
  deriving DecidableEq, Repr

/-- A tax code, or the stage of a staff payable. -/
inductive Code where
  | plain
  | tax (code : TaxCode)
  | pending
  | approved
  deriving DecidableEq, Repr

/-- What identifies an account. -/
structure AccountKey where
  owner : Owner
  category : Category
  code : Code
  deriving DecidableEq, Repr

/-- The entity a leg is booked against. -/
inductive Subject where
  | invoice (id : Id)
  | order (id : Id)
  | booking (id : Id)
  | package (id : Id)
  | giftCard (id : Id)
  | payment (id : Id)
  | staff (id : Id)
  | paymentIntent (id : Id)
  deriving DecidableEq, Repr

/-- What a journal was posted for. -/
inductive Source where
  | payment (id : Id)
  | order (id : Id)
  | line (id : Id)
  | package (id : Id)
  | journal (id : Nat)
  | booking (id : Id)
  | stripePayout (id : Id)
  | stripeTransaction (id : Id)
  deriving DecidableEq, Repr

inductive Stage where
  | approval
  | staffPayment
  deriving DecidableEq, Repr

inductive Ref where
  | invoice (id : Id)
  | invoiceVoid (id : Id)
  | payment (id : Id)
  | fee (paymentId : Id)
  | tip (paymentId staffId : Id)
  | tipDispute (disputeId staffId : Id)
  | refund (id : Id)
  | feeReturn (refundId : Id)
  | dispute (id : Id)
  | disputeWon (id : Id)
  | disputeLost (id : Id)
  | disputeReinstated (id : Id) (amount : Option Int)
  | disputeFee (id : Id) (fee : Option Int)
  | disputeFeeWon (id : Id) (fee : Option Int)
  | payout (id : Id)
  | payoutPaid (id : Id)
  | redemption (cardId : Id) (orderId : Option Id) (serial : Nat)
  | redemptionReversal (journal : Nat)
  | consumption (packageId : Id) (used : Nat)
  | visitConsumption (packageId bookingId : Id)
  | breakage (ownerId : Id)
  | forfeit (bookingId : Id)
  | forfeitBack (bookingId key : Id)
  | forfeitRestore (bookingId key : Id)
  | application (bookingId invoiceId : Id) (again : Option Id)
  | earningAdjustment (serial : Nat)
  | earningClawback (earning count : Nat)
  | earningReversal (journal : Nat)
  | stage (stage : Stage) (earning count : Nat)
  | stripeFee (id : Id)
  | orphan (id : Id)
  | failed (ref : Ref)
  | undo (ref : Ref)
  | reversal (ref : Ref)
  deriving DecidableEq, Repr

inductive Basis where
  | tip | clawback | adjustment | percent | fixed | rate | retail
  deriving DecidableEq, Repr

/-- The `meta` fields later postings read back. -/
structure Metadata where
  basis : Option Basis := none
  of : Option Nat := none
  run : Option Nat := none
  deriving DecidableEq, Repr

structure Info where
  event : EntryEvent
  source : Option Source
  metadata : Metadata
  deriving DecidableEq, Repr

abbrev Leg := Entry AccountKey (Option Subject)

abbrev LedgerJournal := Journal Ref AccountKey (Option Subject) Info

abbrev Ledger := Book Ref AccountKey (Option Subject) Info

def leg (owner : Owner) (category : Category) (cents : Int) : Leg := ⟨⟨owner, category, .plain⟩, cents, none⟩

def legOf (owner : Owner) (category : Category) (cents : Int) (code : Code) : Leg :=
  ⟨⟨owner, category, code⟩, cents, none⟩

def legOn (owner : Owner) (category : Category) (cents : Int) (subject : Subject) : Leg :=
  ⟨⟨owner, category, .plain⟩, cents, some subject⟩

@[simp] theorem leg_key (o : Owner) (c : Category) (n : Int) : (leg o c n).key = ⟨o, c, .plain⟩ := rfl

@[simp] theorem leg_cents (o : Owner) (c : Category) (n : Int) : (leg o c n).cents = n := rfl

@[simp] theorem legOf_key (o : Owner) (c : Category) (n : Int) (k : Code) :
    (legOf o c n k).key = ⟨o, c, k⟩ := rfl

@[simp] theorem legOf_cents (o : Owner) (c : Category) (n : Int) (k : Code) :
    (legOf o c n k).cents = n := rfl

@[simp] theorem legOn_key (o : Owner) (c : Category) (n : Int) (s : Subject) :
    (legOn o c n s).key = ⟨o, c, .plain⟩ := rfl

@[simp] theorem legOn_cents (o : Owner) (c : Category) (n : Int) (s : Subject) :
    (legOn o c n s).cents = n := rfl

/-- Cash the business holds: its Stripe balance, its till and its bank. -/
def Category.isCash : Category → Bool
  | .stripe | .cash | .bank => true
  | _ => false

/-- The credit-side kinds a refund unwinds pro rata (`_UNWOUND`). -/
def Category.isUnwound : Category → Bool
  | .revenue | .tax | .deposit | .deferred | .giftCard => true
  | _ => false

theorem Category.not_isCash {c : Category} (h : c.isUnwound = true) : c.isCash = false := by
  cases c <;> first | rfl | cases h

def payer (clientId : Option Id) : Owner :=
  match clientId with
  | some id => .client id
  | none => .business

/-- Why an operation raised; the transaction it ran in is rolled back. -/
inductive Error where
  | unbalancedJournal (ref : Ref)
  | retryLater
  | conflict (message : String)
  | notFound (message : String)
  | unprocessable (message : String)
  | indeterminate
  | valueError (message : String)
  deriving DecidableEq, Repr

/-- The arguments of one `post`. -/
structure Posting where
  event : EntryEvent
  ref : Ref
  legs : List Leg
  source : Option Source := none
  subject : Option Subject := none
  metadata : Metadata := {}
  keepZero : Bool := false

/-- The legs that are written: the zero ones are dropped unless `keepZero`, and a leg without
a subject of its own takes the journal's. -/
def Posting.written (p : Posting) : List Leg :=
  (if p.keepZero then p.legs else nonzero p.legs).map fun l => { l with tag := l.tag.or p.subject }

def Posting.info (p : Posting) : Info := ⟨p.event, p.source, p.metadata⟩

/-- Write one balanced journal; a repeated `ref` leaves the ledger as it is. -/
def post (L : Ledger) (p : Posting) : Except Error Ledger :=
  if L.has p.ref then .ok L
  else if p.written = [] then .ok L
  else if net p.written ≠ 0 then .error (.unbalancedJournal p.ref)
  else .ok (L ++ [⟨L.length, p.ref, p.info, p.written⟩])

/-- The exact negation of a journal, which is the only way to correct the ledger. -/
def reversal (j : LedgerJournal) (ref : Ref) (event : EntryEvent) (source : Option Source)
    (metadata : Metadata) : Posting where
  event := event
  ref := ref
  legs := negate j.legs
  source := source.or (some (.journal j.id))
  metadata := metadata

def reverse (L : Ledger) (j : LedgerJournal) (ref : Ref) (event : EntryEvent)
    (source : Option Source) (metadata : Metadata) : Except Error Ledger :=
  post L (reversal j ref event source metadata)

/-- `reverse` with its default event, source and meta. -/
def reversePlain (L : Ledger) (j : LedgerJournal) (ref : Ref) : Except Error Ledger :=
  reverse L j ref .reversal none {}

/-- The cached balance of an account: the sum of its entries. -/
def balance (L : Ledger) (key : AccountKey) : Int := L.sum fun _ e => decide (e.key = key)

/-- Journals of a dispute that was lost (`_lost_journal`). -/
def lostJournal (j : LedgerJournal) : Bool :=
  match j.info.source, j.info.event, j.ref with
  | some (.payment _), .dispute, .disputeLost _ => true
  | _, _, _ => false

/-- Dispute legs count against a document only once the dispute is lost. -/
def settled (L : Ledger) (j : LedgerJournal) : Bool :=
  decide (j.info.event ≠ .dispute) || L.any fun l => lostJournal l && decide (l.info.source = j.info.source)

/-- Net of every `category` leg booked against one entity. -/
def subjectBalance (L : Ledger) (category : Category) (subject : Subject) : Int :=
  L.sum fun j e => decide (e.tag = some subject) && decide (e.key.category = category) && settled L j

/-! ## What `post` does -/

/-- What the written legs select, in terms of the legs as given. -/
theorem sumOf_tagged (p : Posting) (q : Leg → Bool) :
    sumOf q p.written = sumOf (fun l => q { l with tag := l.tag.or p.subject }) p.legs := by
  have hmap : ∀ legs : List Leg,
      sumOf q (legs.map fun l => { l with tag := l.tag.or p.subject }) =
        sumOf (fun l => q { l with tag := l.tag.or p.subject }) legs := by
    intro legs
    induction legs with
    | nil => rfl
    | cons e legs ih => rw [List.map_cons, sumOf_cons, sumOf_cons, ih]
  unfold Posting.written
  rw [hmap]
  split
  · rfl
  · exact sumOf_nonzero _ p.legs

theorem sumOf_written (p : Posting) (q : Leg → Bool) (hq : ∀ e t, q { e with tag := t } = q e) :
    sumOf q p.written = sumOf q p.legs := by
  rw [sumOf_tagged]
  exact sumOf_congr fun e _ => hq e _

theorem net_written (p : Posting) : net p.written = net p.legs := by
  rw [← sumOf_true, ← sumOf_true, sumOf_written p _ fun _ _ => rfl]

/-- A balanced posting never raises. -/
theorem post_eq {p : Posting} (h : net p.legs = 0) (L : Ledger) :
    post L p = .ok (L.write p.ref p.info p.written) := by
  unfold post Book.write
  cases hr : L.has p.ref with
  | true => simp
  | false =>
    by_cases hl : p.written = []
    · simp [hl]
    · simp [hl, net_written, h]

/-- A posting that was accepted left the ledger alone or was balanced. -/
theorem post_ok {p : Posting} {L L' : Ledger} (h : post L p = .ok L') :
    L' = L.write p.ref p.info p.written ∧ (L' = L ∨ net p.legs = 0) := by
  unfold post at h
  split at h
  · next hr => cases h; exact ⟨(Book.write_of_has hr _ _).symm, .inl rfl⟩
  · next hr =>
    split at h
    · next hl => cases h; exact ⟨by simp [Book.write, hl], .inl rfl⟩
    · next hl =>
      split at h
      · cases h
      · next hn =>
        cases h
        rw [not_not, net_written] at hn
        exact ⟨(Book.write_of_new (by simpa using hr) _ hl).symm, .inr hn⟩

/-- What a new posting adds to a sum. -/
theorem sum_posted {L : Ledger} {p : Posting} (hnew : L.has p.ref = false)
    (q : LedgerJournal → Leg → Bool) :
    (L.write p.ref p.info p.written).sum q = L.sum q +
      sumOf (fun l => q ⟨L.length, p.ref, p.info, p.written⟩ { l with tag := l.tag.or p.subject })
        p.legs := by
  rw [Book.sum_write_new hnew, sumOf_tagged]

theorem bind_ok {α β : Type} {x : Except Error α} {f : α → Except Error β} {b : β}
    (h : x >>= f = .ok b) : ∃ a, x = .ok a ∧ f a = .ok b := by
  cases x with
  | error e => cases h
  | ok a => exact ⟨a, rfl, h⟩

theorem bind_error {α β : Type} {x : Except Error α} {f : α → Except Error β} {err : Error}
    (h : x >>= f = .error err) : x = .error err ∨ ∃ a, x = .ok a ∧ f a = .error err := by
  cases x with
  | error e =>
    cases h
    exact .inl rfl
  | ok a => exact .inr ⟨a, rfl, h⟩

theorem eq_ok_get {α : Type} {x : Except Error α} (h : x.toOption.isSome) : x = .ok (x.toOption.get h) := by
  cases x with
  | error e => cases h
  | ok a => rfl

theorem post_grows {p : Posting} (h : net p.legs = 0) (L : Ledger) {P : Ref → Prop} (hr : P p.ref) :
    ∃ L', post L p = .ok L' ∧ Grows P L L' :=
  ⟨_, post_eq h L, grows_write hr L _ _⟩

theorem wellKept_post {L L' : Ledger} (hL : WellKept L) {p : Posting} (h : post L p = .ok L') :
    WellKept L' := by
  obtain ⟨rfl, he | hn⟩ := post_ok h
  · rwa [he]
  · exact hL.write _ _ (by rw [net_written]; exact hn)

theorem reversal_written (j : LedgerJournal) (ref : Ref) (event : EntryEvent)
    (source : Option Source) (metadata : Metadata) :
    (reversal j ref event source metadata).written = nonzero (negate j.legs) := by
  simp [Posting.written, reversal]

theorem reverse_eq {j : LedgerJournal} (h : net j.legs = 0) (L : Ledger) (ref : Ref)
    (event : EntryEvent) (source : Option Source) (metadata : Metadata) :
    reverse L j ref event source metadata =
      .ok (L.write ref ⟨event, source.or (some (.journal j.id)), metadata⟩ (nonzero (negate j.legs))) := by
  unfold reverse
  rw [post_eq (by simp [reversal, h]), reversal_written]
  rfl

/-- A reversal takes back what its journal put on any account. -/
theorem sumOf_reversal (j : LedgerJournal) (q : Leg → Bool)
    (hq : ∀ e c, q { e with cents := c } = q e) :
    sumOf q (nonzero (negate j.legs)) = -sumOf q j.legs := by
  rw [sumOf_nonzero, sumOf_negate q hq]

/-! ## Sums by reference and account -/

/-- What the journals under some references put on some accounts. -/
def onAccounts (L : Ledger) (R : Ref → Bool) (q : AccountKey → Bool) : Int :=
  L.sum fun j e => R j.ref && q e.key

def keyed (q : AccountKey → Bool) (legs : List Leg) : Int := sumOf (fun e => q e.key) legs

@[simp] theorem keyed_nil (q : AccountKey → Bool) : keyed q [] = 0 := rfl

@[simp] theorem keyed_cons (q : AccountKey → Bool) (e : Leg) (legs : List Leg) :
    keyed q (e :: legs) = (if q e.key then e.cents else 0) + keyed q legs := sumOf_cons _ _ _

@[simp] theorem keyed_append (q : AccountKey → Bool) (xs ys : List Leg) :
    keyed q (xs ++ ys) = keyed q xs + keyed q ys := sumOf_append _ _ _

/-- What one journal puts on an account and another takes off cancels out. -/
theorem keyed_cancel (q : AccountKey → Bool) (o : Owner) (c : Category) (n : Int) (xs ys : List Leg) :
    keyed q (leg o c n :: xs) + keyed q (leg o c (-n) :: ys) = keyed q xs + keyed q ys := by
  rw [keyed_cons, keyed_cons]
  by_cases h : q ⟨o, c, .plain⟩ = true
  · simp [h]; omega
  · simp [h]

theorem keyed_written (q : AccountKey → Bool) (p : Posting) : keyed q p.written = keyed q p.legs :=
  sumOf_written p _ fun _ _ => rfl

theorem onAccounts_write (L : Ledger) (R : Ref → Bool) (q : AccountKey → Bool) (r : Ref) (i : Info)
    (legs : List Leg) :
    onAccounts (L.write r i legs) R q =
      onAccounts L R q + if L.has r || !R r then 0 else keyed q legs := by
  unfold onAccounts
  rw [Book.sum_write]
  cases hr : R r with
  | true => simp [keyed]
  | false => simp [sumOf_false]

/-- What a posting adds to the selected accounts. -/
theorem onAccounts_posted (L : Ledger) (R : Ref → Bool) (q : AccountKey → Bool) (p : Posting) :
    onAccounts (L.write p.ref p.info p.written) R q =
      onAccounts L R q + if L.has p.ref || !R p.ref then 0 else keyed q p.legs := by
  rw [onAccounts_write, keyed_written]

theorem onAccounts_eq_zero {L : Ledger} {R : Ref → Bool} (h : ∀ r, R r = true → L.has r = false)
    (q : AccountKey → Bool) : onAccounts L R q = 0 := by
  refine Book.sum_eq_zero_of_no_journal fun j hj e => ?_
  cases hr : R j.ref with
  | false => rfl
  | true => exact absurd rfl ((L.has_false_iff j.ref).1 (h j.ref hr) j hj)

theorem onAccounts_of_grows {P : Ref → Prop} {L L' : Ledger} (h : Grows P L L') {R : Ref → Bool}
    (hR : ∀ r, P r → R r = false) (q : AccountKey → Bool) : onAccounts L' R q = onAccounts L R q :=
  h.sum_eq fun j hj e => by rw [hR j.ref hj]; rfl

/-! ## Lost disputes -/

theorem lostJournal_false {j : LedgerJournal} (h : ∀ id, j.ref ≠ .disputeLost id) :
    lostJournal j = false := by
  unfold lostJournal
  split
  · next id _ _ hr => exact absurd hr (h _)
  · rfl

/-- Which dispute legs count only changes when a dispute is lost. -/
theorem settled_of_grows {P : Ref → Prop} {L L' : Ledger} (h : Grows P L L')
    (hP : ∀ r, P r → ∀ id, r ≠ .disputeLost id) : settled L' = settled L := by
  obtain ⟨C, rfl, hC⟩ := h
  have hn : ∀ j, List.any C (fun l => lostJournal l && decide (l.info.source = (j : LedgerJournal).info.source)) =
      false := by
    intro j
    rw [List.any_eq_false]
    intro l hl
    rw [lostJournal_false (hP _ (hC l hl))]
    simp
  funext j
  simp only [settled, List.any_append, hn, Bool.or_false]

theorem settled_of_ne {L : Ledger} {j : LedgerJournal} (h : j.info.event ≠ .dispute) :
    settled L j = true := by
  simp [settled, h]

end ClientBridge
