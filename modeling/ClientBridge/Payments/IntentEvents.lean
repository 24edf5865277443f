import ClientBridge.Ledger.Store
import ClientBridge.Library.Interleave

/-!
# The events of one intent

Stripe reports that a charge succeeded, failed or was canceled, and each event is handled in a
transaction of its own that reads the payment's row and writes its status later.  The row and the ledger
agree as long as a failure is written on a row that is still pending (`settled_stays`); the handler does
not look again, so it can be written over a settled charge (`late_failure`).
-/

namespace ClientBridge

open Runs

inductive IntentEvent where
  | succeeded | paymentFailed | canceled
  deriving DecidableEq, Repr

/-- The status an event's handler writes. -/
def IntentEvent.status : IntentEvent → PaymentStatus
  | .succeeded => .succeeded
  | .paymentFailed => .failed
  | .canceled => .canceled

/-- What the handlers see of the database: the committed status of the intent's row, whether the
payment's journal is committed, and the handler whose open transaction has written the row. -/
structure IntentStore (π : Type) where
  status : Option PaymentStatus
  journal : Bool
  holder : Option π

/-- Where a handler is. -/
inductive IntentPlace where
  | waiting
  /-- It has read the row, without a lock. -/
  | read (status : Option PaymentStatus)
  | written
  | returned
  | raised
  deriving DecidableEq, Repr

/-- Whether `_settle_payment` settles a row it read; `expired` says the row's sale is void. -/
def canSettle (expired : Bool) : PaymentStatus → Bool
  | .pending | .failed => true
  | .canceled => expired
  | .succeeded => false

variable {π : Type} [DecidableEq π]

/-- The end of a handler's transaction. -/
def IntentStore.release (s : IntentStore π) (p : π) : IntentStore π :=
  { s with holder := if s.holder = some p then none else s.holder }

/-- One step of one handler.  A write waits for another transaction's to end, and is then made on
whatever was committed. -/
inductive IntentStep (events : π → IntentEvent) (p : π) (s : IntentStore π) :
    IntentPlace → IntentStore π → IntentPlace → Prop
  | read : IntentStep events p s .waiting s (.read s.status)
  /-- `_payment_from_intent` inserts a row, unless another transaction has. -/
  | rebuild (he : events p = .succeeded) (hfree : s.holder = none) (hrow : s.status = none) :
      IntentStep events p s (.read none) { s with holder := some p } .written
  | settle {status} (expired : Bool) (he : events p = .succeeded) (hs : canSettle expired status = true)
      (hfree : s.holder = none) : IntentStep events p s (.read (some status)) { s with holder := some p } .written
  /-- `_fail_payment` writes on a row it read as pending. -/
  | fail (he : events p ≠ .succeeded) (hfree : s.holder = none) :
      IntentStep events p s (.read (some .pending)) { s with holder := some p } .written
  /-- There is no row, or none that the handler changes. -/
  | skip {status} : IntentStep events p s (.read status) s .returned
  /-- A repeated post of the journal returns the first. -/
  | commit : IntentStep events p s .written
      { s.release p with status := some (events p).status, journal := s.journal || (events p == .succeeded) } .returned
  | raise {x} : IntentStep events p s x (s.release p) .raised

/-- A failure or a cancellation is written on a row that is still pending. -/
def TimelyWrite (events : π → IntentEvent) (p : π) (s : IntentStore π) (x : IntentPlace) (s' : IntentStore π)
    (x' : IntentPlace) : Prop :=
  IntentStep events p s x s' x' ∧ (events p ≠ .succeeded → x' = .written → s.status = some .pending)

/-- The row is settled exactly when the ledger has its journal. -/
def Agrees (s : IntentStore π) : Prop := s.journal = true ↔ s.status = some .succeeded

/-- What a handler knows of the row at its place. -/
structure HandlerKnows (events : π → IntentEvent) (p : π) (s : IntentStore π) (x : IntentPlace) : Prop where
  holds : x = .written ↔ s.holder = some p
  pending : x = .written → events p ≠ .succeeded → s.status = some .pending

/-- Before any handler reads. -/
structure IntentIdle (w : World π (IntentStore π) IntentPlace) : Prop where
  agrees : Agrees w.store
  free : w.store.holder = none
  waiting : ∀ p, w.place p = .waiting

theorem release_holder (s : IntentStore π) (p : π) : (s.release p).holder ≠ some p := by
  unfold IntentStore.release
  dsimp only
  split
  · exact fun h => by cases h
  · assumption

theorem release_other {s : IntentStore π} {p q : π} (hq : q ≠ p) : (s.release p).holder = some q ↔ s.holder = some q := by
  unfold IntentStore.release
  dsimp only
  split
  · next hp => simp [hp, Ne.symm hq]
  · rfl

theorem intent_kept (events : π → IntentEvent) : Kept (TimelyWrite events) Agrees (HandlerKnows events) where
  store := by
    rintro p s x s' x' ⟨hs, -⟩ hI hJ
    cases hs with
    | read | rebuild | settle | fail | skip | raise => exact hI
    | commit =>
      cases he : events p with
      | succeeded => exact ⟨fun _ => rfl, fun _ => by show (s.journal || true) = true; rw [Bool.or_true]⟩
      | paymentFailed | canceled =>
        -- the row was pending, so no journal is there
        have hpending := hJ.pending rfl (by rw [he]; decide)
        have hnone : s.journal ≠ true := fun hj => by
          have := hI.1 hj
          rw [hpending] at this
          cases this
        refine ⟨fun hj => ?_, fun hst => by cases hst⟩
        have hj' : (s.journal || false) = true := hj
        rw [Bool.or_false] at hj'
        exact absurd hj' hnone
  own := by
    rintro p s x s' x' ⟨hs, htimely⟩ hI hJ
    have hfree : x ≠ .written → s.holder ≠ some p := fun hx hh => hx (hJ.holds.2 hh)
    cases hs with
    | read => exact ⟨by simpa using hfree (by simp), by simp⟩
    | skip => exact ⟨by simpa using hfree (by simp), by simp⟩
    | rebuild he hf hrow => exact ⟨by simp, fun _ hne => absurd he hne⟩
    | settle expired he hset hf => exact ⟨by simp, fun _ hne => absurd he hne⟩
    | fail he hf => exact ⟨by simp, fun hx hne => htimely hne hx⟩
    | commit => exact ⟨by simpa using release_holder s p, by simp⟩
    | raise => exact ⟨by simpa using release_holder s p, by simp⟩
  others := by
    rintro p s x s' x' q y ⟨hs, -⟩ hq hI hJ hJ'
    have hpq : some p ≠ some q := fun e => hq (Option.some.inj e).symm
    cases hs with
    | read | skip => exact hJ'
    | rebuild he hf hrow => exact ⟨by simp [hJ'.holds, hf, Ne.symm hq], hJ'.pending⟩
    | settle expired he hset hf => exact ⟨by simp [hJ'.holds, hf, Ne.symm hq], hJ'.pending⟩
    | fail he hf => exact ⟨by simp [hJ'.holds, hf, Ne.symm hq], hJ'.pending⟩
    | commit =>
      have hy : y ≠ .written := fun hy => hpq ((hJ.holds.1 rfl).symm.trans (hJ'.holds.1 hy))
      exact ⟨hJ'.holds.trans (release_other hq).symm, fun h => absurd h hy⟩
    | raise => exact ⟨hJ'.holds.trans (release_other hq).symm, hJ'.pending⟩

/-- **A settled charge stays settled** when failures are written on pending rows: in every run of any
handlers of one intent's events, the row reads succeeded exactly when its journal is in the ledger. -/
theorem settled_stays (events : π → IntentEvent) {w w' : World π (IntentStore π) IntentPlace} {ps : List π}
    (hidle : IntentIdle w) (hrun : Run (Interleaved (TimelyWrite events)) w ps w') : Agrees w'.store := by
  refine ((intent_kept events).run hrun ⟨hidle.agrees, fun p => ?_⟩).1
  rw [hidle.waiting p]
  exact ⟨by simp [hidle.free], by simp⟩

/-! ## A charge that failed once and succeeded then -/

/-- Two events of one intent: its first card was declined, its second paid. -/
def declinedThenPaid : Bool → IntentEvent
  | false => .paymentFailed
  | true => .succeeded

def openIntent : World Bool (IntentStore Bool) IntentPlace := ⟨⟨some .pending, false, none⟩, fun _ => .waiting⟩

theorem openIntent_idle : IntentIdle openIntent := ⟨by simp [Agrees, openIntent], rfl, fun _ => rfl⟩

/-- The failure is handled first. -/
theorem declined_settles : ∃ w ps, IntentIdle openIntent ∧ Run (Interleaved (TimelyWrite declinedThenPaid)) openIntent ps w ∧
    w.store.journal = true ∧ Agrees w.store := by
  have hrun : Run (Interleaved (TimelyWrite declinedThenPaid)) openIntent [false, false, false, true, true, true] _ :=
    .cons (.from rfl ⟨.read, by simp⟩)
    (.cons (.from rfl ⟨.fail (by decide) rfl, fun _ _ => rfl⟩)
    (.cons (.from rfl ⟨.commit, by simp⟩)
    (.cons (.from rfl ⟨.read, by simp⟩)
    (.cons (.from rfl ⟨.settle false rfl rfl rfl, fun h => absurd rfl h⟩)
    (.cons (.from rfl ⟨.commit, by simp⟩) .nil)))))
  exact ⟨_, _, openIntent_idle, hrun, rfl, settled_stays declinedThenPaid openIntent_idle hrun⟩

/-- Both handlers read the row pending; the failure is written after the charge is settled. -/
theorem late_failure : ∃ w ps, IntentIdle openIntent ∧ Run (Interleaved (IntentStep declinedThenPaid)) openIntent ps w ∧
    w.store.journal = true ∧ w.store.status = some .failed := by
  have hrun : Run (Interleaved (IntentStep declinedThenPaid)) openIntent [false, true, true, true, false, false] _ :=
    .cons (.from rfl .read)
    (.cons (.from rfl .read)
    (.cons (.from rfl (.settle false rfl rfl rfl))
    (.cons (.from rfl .commit)
    (.cons (.from rfl (.fail (by decide) rfl))
    (.cons (.from rfl .commit) .nil)))))
  exact ⟨_, _, openIntent_idle, hrun, rfl, rfl⟩

end ClientBridge
