import ClientBridge.Library.Interleave
import ClientBridge.Ledger.Journals

/-!
# Posting from concurrent transactions

The rows of the `entries` and `accounts` tables as transactions see them.  A transaction reads
what is committed and what it wrote itself; its entries and the balances the entries trigger
wrote become visible when it commits.  Row locks on accounts last until it ends, or until the
savepoint they were taken in is rolled back; an entry whose `(ref, leg)` another transaction
has inserted waits for it, and fails once that one is committed.
-/

namespace ClientBridge

open Bookkeeping

/-- An account row's identity; an account without a row has balance 0. -/
structure LedgerAccount where
  business : Id
  currency : String
  key : AccountKey
  deriving DecidableEq, Repr

/-- A row of the `entries` table. -/
structure EntryRow where
  journalId : Nat
  account : LedgerAccount
  cents : Int
  subject : Option Subject
  ref : Ref
  leg : Nat
  info : Info
  deriving DecidableEq, Repr

def supportedCurrencies : List String := ["CAD"]

/-- One call of `post`; `reverses` is the journal a `reverse` negates. -/
structure PostCall where
  business : Id
  currency : String
  posting : Posting
  reverses : Option Nat

/-- What the entries select adds up to. -/
def rowSum (rows : List EntryRow) (q : EntryRow → Bool) : Int := ((rows.filter q).map (·.cents)).sum

def journalFor (rows : List EntryRow) (business : Id) (ref : Ref) : Option Nat :=
  (rows.find? fun r => decide (r.account.business = business) && decide (r.ref = ref)).map (·.journalId)

inductive PostStart where
  | done
  | raised
  | locks
  deriving DecidableEq

/-- `post` up to its locks, over the entries the transaction sees. -/
def PostCall.start (rows : List EntryRow) (q : PostCall) : PostStart :=
  if q.currency ∉ supportedCurrencies then .raised
  else if (journalFor rows q.business q.posting.ref).isSome then .done
  else if q.posting.written = [] then .done
  else if net q.posting.written ≠ 0 then .raised
  else .locks

def PostCall.account (q : PostCall) (key : AccountKey) : LedgerAccount := ⟨q.business, q.currency, key⟩

/-- The accounts `_lock_accounts` is asked for. -/
def PostCall.accounts (q : PostCall) : List LedgerAccount := q.posting.written.map fun l => q.account l.key

/-- The entry of one leg. -/
def PostCall.row (q : PostCall) (journalId leg : Nat) (l : Leg) : EntryRow :=
  ⟨journalId, q.account l.key, l.cents, l.tag, q.posting.ref, leg, q.posting.info⟩

/-- The exact negation of a journal, as `reverse` posts it. -/
def reverseCall (rows : List EntryRow) (business : Id) (journalId : Nat) (ref : Ref) (event : EntryEvent)
    (source : Option Source) (metadata : Metadata) : Option PostCall :=
  match rows.filter fun r => decide (r.account.business = business) && decide (r.journalId = journalId) with
  | [] => none
  | first :: rest => some {
      business := business
      currency := first.account.currency
      posting := {
        event := event
        ref := ref
        legs := (first :: rest).map fun r => ⟨r.account.key, -r.cents, r.subject⟩
        source := source.or (some (.journal journalId))
        metadata := metadata }
      reverses := some journalId }

/-- Where a transaction is in a `post`. -/
inductive PostPhase where
  | idle
  | locking (q : PostCall)
  | locked (q : PostCall)
  | inserting (q : PostCall) (journalId done : Nat)

/-- What a transaction wrote: its entries, its versions of the balances it moved, and the
journals it reversed. -/
structure Written where
  rows : List EntryRow
  versions : LedgerAccount → Option Int
  reversals : List (Nat × Nat)

/-- What a savepoint goes back to, and the locks that outlive its rollback. -/
structure Savepoint where
  written : Written
  locks : LedgerAccount → Bool

structure LedgerTx where
  written : Written
  /-- `db.info["ledger_locked_accounts"]` -/
  held : LedgerAccount → Bool
  phase : PostPhase
  saves : List Savepoint

/-- What is committed, the locks and inserts of open transactions, and the ids given out. -/
structure LedgerStore (π : Type) where
  rows : List EntryRow
  balances : LedgerAccount → Int
  reversals : List (Nat × Nat)
  locks : LedgerAccount → Option π
  inFlight : Ref → Nat → Option π
  issued : Nat → Option (π × PostCall)

def Written.empty : Written := ⟨[], fun _ => none, []⟩

def LedgerTx.fresh : LedgerTx := ⟨.empty, fun _ => false, .idle, []⟩

/-- The balance a transaction sees. -/
def Written.balance (w : Written) (balances : LedgerAccount → Int) (a : LedgerAccount) : Int :=
  (w.versions a).getD (balances a)

/-- An inserted entry moves its account's balance, by the entries trigger. -/
def Written.insert (w : Written) (balances : LedgerAccount → Int) (r : EntryRow) : Written :=
  { w with
    rows := w.rows ++ [r]
    versions := Function.update w.versions r.account (some (w.balance balances r.account + r.cents)) }

section
variable {π : Type} [DecidableEq π]

/-- Locks and inserts of a transaction that ends, or goes back to a savepoint. -/
def LedgerStore.release (s : LedgerStore π) (p : π) (keep : Savepoint) : LedgerStore π :=
  { s with
    locks := fun a => if s.locks a = some p ∧ keep.locks a = false then none else s.locks a
    inFlight := fun r n => if s.inFlight r n = some p ∧ keep.written.rows.all (fun e => decide (e.ref ≠ r ∨ e.leg ≠ n))
      then none else s.inFlight r n }

def Savepoint.start : Savepoint := ⟨.empty, fun _ => false⟩

def LedgerStore.commit (s : LedgerStore π) (w : Written) : LedgerStore π :=
  { s with
    rows := s.rows ++ w.rows
    balances := w.balance s.balances
    reversals := s.reversals ++ w.reversals }

/-- One step of one transaction. -/
inductive LedgerStep (p : π) (s : LedgerStore π) : LedgerTx → LedgerStore π → LedgerTx → Prop
  | post {x} (q : PostCall) (hx : x.phase = .idle) (hq : q.reverses = none)
      (hstart : q.start (s.rows ++ x.written.rows) = .locks) : LedgerStep p s x s { x with phase := .locking q }
  | reverse {x} {q : PostCall} {business journalId ref event source metadata} (hx : x.phase = .idle)
      (hq : reverseCall (s.rows ++ x.written.rows) business journalId ref event source metadata = some q)
      (hstart : q.start (s.rows ++ x.written.rows) = .locks) : LedgerStep p s x s { x with phase := .locking q }
  /-- One account row, `for update`; an account another transaction holds is waited for. -/
  | lock {x q a} (hx : x.phase = .locking q) (ha : a ∈ q.accounts) (hfree : s.locks a = none ∨ s.locks a = some p) :
      LedgerStep p s x { s with locks := Function.update s.locks a (some p) } x
  /-- Accounts locked earlier in the transaction stay locked. -/
  | cached {x q} (hx : x.phase = .locking q) (hheld : ∀ a ∈ q.accounts, x.held a = true) :
      LedgerStep p s x s { x with phase := .locked q }
  | locked {x q} (hx : x.phase = .locking q) (hlocks : ∀ a ∈ q.accounts, s.locks a = some p) :
      LedgerStep p s x s { x with
        phase := .locked q
        held := fun a => x.held a || decide (a ∈ q.accounts) }
  /-- A concurrent post of the same ref may have committed it. -/
  | found {x q} (hx : x.phase = .locked q)
      (hfound : (journalFor (s.rows ++ x.written.rows) q.business q.posting.ref).isSome) :
      LedgerStep p s x s { x with phase := .idle }
  | issue {x q} (hx : x.phase = .locked q)
      (hnew : journalFor (s.rows ++ x.written.rows) q.business q.posting.ref = none)
      (n : Nat) (hn : s.issued n = none) :
      LedgerStep p s x { s with issued := Function.update s.issued n (some (p, q)) }
        { x with phase := .inserting q n 0 }
  /-- The entry of the next leg: unique on `(ref, leg)`, under its account's lock. -/
  | insert {x q n i} {l : Leg} (hx : x.phase = .inserting q n i) (hl : q.posting.written[i]? = some l)
      (hunique : ∀ r ∈ s.rows ++ x.written.rows, ¬(r.ref = q.posting.ref ∧ r.leg = i))
      (hflight : s.inFlight q.posting.ref i = none)
      (hfree : s.locks (q.account l.key) = none ∨ s.locks (q.account l.key) = some p) :
      LedgerStep p s x
        { s with
          locks := Function.update s.locks (q.account l.key) (some p)
          inFlight := Function.update s.inFlight q.posting.ref
            (Function.update (s.inFlight q.posting.ref) i (some p)) }
        { x with
          written := x.written.insert s.balances (q.row n i l)
          phase := .inserting q n (i + 1) }
  | finish {x q n} (hx : x.phase = .inserting q n q.posting.written.length) :
      LedgerStep p s x s { x with
        phase := .idle
        written := { x.written with
          reversals := x.written.reversals ++ q.reverses.toList.map fun j => (j, n) } }
  | save {x} (hx : x.phase = .idle) :
      LedgerStep p s x s { x with saves := ⟨x.written, fun a => decide (s.locks a = some p)⟩ :: x.saves }
  /-- A savepoint's end forgets the cached locks (`_forget_locked`). -/
  | releaseSave {x v saves} (hx : x.phase = .idle) (hv : x.saves = v :: saves) :
      LedgerStep p s x s { x with saves := saves, held := fun _ => false }
  | rollbackSave {x v saves} (hv : x.saves = v :: saves) :
      LedgerStep p s x (s.release p v) ⟨v.written, fun _ => false, .idle, saves⟩
  | commit {x} (hx : x.phase = .idle) (hsaves : x.saves = []) :
      LedgerStep p s x ((s.commit x.written).release p .start) .fresh
  | abort {x} : LedgerStep p s x (s.release p .start) .fresh

end

end ClientBridge
