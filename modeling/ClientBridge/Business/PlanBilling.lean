import ClientBridge.Ledger.Journals
import ClientBridge.Library.Interleave

/-!
# Plan subscriptions

A business pays for its plan through a Stripe subscription made by a Checkout.  Each event of a
subscription is handled under the business's row lock, against Stripe's current copy (`_mirror`):
the subscription is adopted, or it is a duplicate of the one the business pays through and is
canceled, or it replaces one that no longer pays.  `run_sync_plans` mirrors the adopted one.
Stripe changes a subscription's status at any time, also while a handler runs.
-/

namespace ClientBridge

open Runs

/-- A subscription's status at Stripe. -/
inductive StripeStatus where
  | incomplete | incompleteExpired | trialing | active | pastDue | canceled | unpaid | paused
  deriving DecidableEq, Repr

inductive PlanStatus where
  | trialing | active | pastDue | lapsed
  deriving DecidableEq, Repr

inductive Plan where
  | premium | team
  deriving DecidableEq, Repr

/-- Stripe's copy of a plan subscription; `tier` is what its items sell. -/
structure PlanSubscription where
  status : StripeStatus
  tier : Option Plan
  createdAt : Option Int
  deriving DecidableEq, Repr

structure PlanBusiness where
  stripeSubscriptionId : Option Id
  planStatus : PlanStatus
  plan : Option Plan
  trialEndsAt : Int
  deriving DecidableEq, Repr

/-- `_STRIPE_STATUS`. -/
def StripeStatus.planStatus : StripeStatus → Option PlanStatus
  | .active => some .active
  | .trialing => some .active
  | .pastDue => some .pastDue
  | .unpaid => some .lapsed
  | .canceled => some .lapsed
  | .paused => some .lapsed
  | .incompleteExpired => some .lapsed
  | .incomplete => none

/-- Whether a plan status is one of `_LIVE`. -/
def PlanStatus.isLive (s : PlanStatus) : Bool := decide (s = .active ∨ s = .pastDue)

/-- Whether a status at Stripe is one of `_LIVE`. -/
def StripeStatus.isLive (s : StripeStatus) : Bool := decide (s = .active ∨ s = .pastDue)

/-- `_ENDED`. -/
def StripeStatus.isEnded (s : StripeStatus) : Bool := decide (s = .canceled ∨ s = .incompleteExpired)

/-- Whether a subscription bills the business, or will when its trial ends. -/
def StripeStatus.pays (s : StripeStatus) : Bool := decide (s = .active ∨ s = .pastDue ∨ s = .trialing)

inductive PlanAccess where
  | trial | active | pastDue | lapsed
  deriving DecidableEq, Repr

def planAccess (b : PlanBusiness) (now : Int) : PlanAccess :=
  match b.planStatus with
  | .trialing => if now < b.trialEndsAt then .trial else .lapsed
  | .active => .active
  | .pastDue => .pastDue
  | .lapsed => .lapsed

/-- `_mirrored_status`. -/
def mirroredStatus (b : PlanBusiness) (sub : PlanSubscription) (now : Int) : Option PlanStatus :=
  if sub.status = .incompleteExpired ∧ planAccess b now = .trial then none else sub.status.planStatus

/-- `apply_plan_subscription`. -/
def applyPlanSubscription (b : PlanBusiness) (sub : PlanSubscription) (now : Int) : PlanBusiness :=
  match mirroredStatus b sub now with
  | none => b
  | some status => { b with planStatus := status, plan := if status = .lapsed then none else sub.tier }

/-- The subscription is adopted, then mirrored. -/
def adopt (b : PlanBusiness) (id : Id) (sub : PlanSubscription) (now : Int) : PlanBusiness :=
  applyPlanSubscription { b with stripeSubscriptionId := some id } sub now

/-- Whether the business already pays through another subscription. -/
def PlanBusiness.paysOther (b : PlanBusiness) (id : Id) : Bool :=
  b.stripeSubscriptionId.any (· ≠ id) && b.planStatus.isLive

/-- Only a duplicate made no earlier than the one that stays is refunded. -/
def refundsDuplicate (duplicate active : PlanSubscription) : Bool :=
  match duplicate.createdAt, active.createdAt with
  | some d, some a => decide (a ≤ d)
  | _, _ => false

/-- The business's row, and its lock; Stripe's subscriptions.  `changes` counts a subscription's
status changes, and `handled` is the count at which the last handled event of it was taken up. -/
structure PlanStore (π : Type) where
  business : PlanBusiness
  lock : Option π
  subscriptions : Id → Option PlanSubscription
  refunded : List Id
  changes : Id → Nat
  handled : Id → Option Nat

namespace PlanStore

variable {π : Type}

/-- Stripe makes a subscription, or changes its status. -/
def setCopy (s : PlanStore π) (id : Id) (sub : PlanSubscription) : PlanStore π :=
  { s with
    subscriptions := Function.update s.subscriptions id (some sub)
    changes := Function.update s.changes id (s.changes id + 1) }

def setStatus (s : PlanStore π) (id : Id) (status : StripeStatus) : PlanStore π :=
  match s.subscriptions id with
  | none => s
  | some sub => s.setCopy id { sub with status := status }

/-- An event was handled that was taken up at `count`. -/
def finish (s : PlanStore π) (id : Id) (count : Nat) (b : PlanBusiness) : PlanStore π :=
  { s with business := b, lock := none, handled := Function.update s.handled id (some count) }

/-- An event was handled after the last status change. -/
def UpToDate (s : PlanStore π) (id : Id) : Prop := s.handled id = some (s.changes id)

end PlanStore

/-- Where a handler is; `count` is the number of status changes when it took the lock. -/
inductive PlanPlace where
  | idle
  | mirroring (id : Id) (count : Nat)
  /-- The business pays through another subscription; this one's copy was read. -/
  | duplicate (id : Id) (count : Nat) (sub : PlanSubscription)
  | judged (id : Id) (count : Nat) (refund : Bool)
  | canceled (id : Id) (count : Nat)
  /-- The copy to mirror was read. -/
  | got (id : Id) (count : Nat) (sub : PlanSubscription)
  | replacing (id : Id) (count : Nat) (sub : PlanSubscription) (previous : Id)
  | writing (id : Id) (count : Nat) (sub : PlanSubscription)
  | syncing (id : Id)
  | synced (id : Id) (sub : PlanSubscription)

/-- One step of a handler, of a sync pass, or of Stripe. -/
inductive PlanStep {π : Type} [DecidableEq π] (p : π) : PlanStore π → PlanPlace → PlanStore π → PlanPlace → Prop
  /-- A Checkout makes a subscription. -/
  | checkout {s id} {sub : PlanSubscription} (h : s.subscriptions id = none) :
      PlanStep p s .idle (s.setCopy id sub) .idle
  | change {s id} (status : StripeStatus) : PlanStep p s .idle (s.setStatus id status) .idle
  | lock {s id} (hl : s.lock = none) : PlanStep p s .idle { s with lock := some p } (.mirroring id (s.changes id))
  | ended {s id count sub} (hb : s.business.paysOther id = true) (h : s.subscriptions id = some sub)
      (he : sub.status.isEnded = true) : PlanStep p s (.mirroring id count) (s.finish id count s.business) .idle
  | duplicate {s id count sub} (hb : s.business.paysOther id = true) (h : s.subscriptions id = some sub)
      (he : sub.status.isEnded = false) : PlanStep p s (.mirroring id count) s (.duplicate id count sub)
  | judge {s id count sub current active} (hc : s.business.stripeSubscriptionId = some current)
      (h : s.subscriptions current = some active) :
      PlanStep p s (.duplicate id count sub) s (.judged id count (refundsDuplicate sub active))
  | refund {s id count} :
      PlanStep p s (.judged id count true) { s with refunded := id :: s.refunded } (.judged id count false)
  | cancel {s id count} : PlanStep p s (.judged id count false) (s.setStatus id .canceled) (.canceled id count)
  | canceled {s id count} : PlanStep p s (.canceled id count) (s.finish id count s.business) .idle
  | get {s id count sub} (hb : s.business.paysOther id = false) (h : s.subscriptions id = some sub) :
      PlanStep p s (.mirroring id count) s (.got id count sub)
  | stale {s id count sub current} (hc : s.business.stripeSubscriptionId = some current) (hne : current ≠ id)
      (he : sub.status.isEnded = true) : PlanStep p s (.got id count sub) (s.finish id count s.business) .idle
  | replace {s id count sub current previous} (hc : s.business.stripeSubscriptionId = some current) (hne : current ≠ id)
      (hl : sub.status.isLive = true) (h : s.subscriptions current = some previous)
      (he : previous.status.isEnded = false) : PlanStep p s (.got id count sub) s (.replacing id count sub current)
  | replaced {s id count sub current} :
      PlanStep p s (.replacing id count sub current) (s.setStatus current .canceled) (.writing id count sub)
  | keep {s id count sub}
      (h : ∀ current, s.business.stripeSubscriptionId = some current → current ≠ id → sub.status.isEnded = false ∧
        (sub.status.isLive = true → ∃ previous, s.subscriptions current = some previous ∧
          previous.status.isEnded = true)) : PlanStep p s (.got id count sub) s (.writing id count sub)
  | write {s id count sub} (now : Int) :
      PlanStep p s (.writing id count sub) (s.finish id count (adopt s.business id sub now)) .idle
  | syncLock {s id} (hl : s.lock = none) (hc : s.business.stripeSubscriptionId = some id) :
      PlanStep p s .idle { s with lock := some p } (.syncing id)
  | syncGet {s id sub} (h : s.subscriptions id = some sub) : PlanStep p s (.syncing id) s (.synced id sub)
  | syncWrite {s id sub} (now : Int) :
      PlanStep p s (.synced id sub)
        { s with business := applyPlanSubscription s.business sub now, lock := none } .idle
  | rollback {s x} : PlanStep p s x { s with lock := if s.lock = some p then none else s.lock } .idle

end ClientBridge
