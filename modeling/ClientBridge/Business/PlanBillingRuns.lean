import ClientBridge.Business.PlanBilling

/-!
# One plan subscription bills a business

A subscription that pays, and whose last status change an event was handled after, is the
business's own (`OnePayer`): a handler that adopts another one first saw under the lock that the
business pays through none.
-/

namespace ClientBridge

open Runs

variable {π : Type} {p q : π} {s s' : PlanStore π}

theorem StripeStatus.planStatus_of_pays {status : StripeStatus} (h : status.pays = true) :
    ∃ t : PlanStatus, status.planStatus = some t ∧ t.isLive = true := by
  cases status <;> first | exact ⟨_, rfl, rfl⟩ | cases h

theorem mirroredStatus_of_pays {b : PlanBusiness} {sub : PlanSubscription} (h : sub.status.pays = true) (now : Int) :
    mirroredStatus b sub now = sub.status.planStatus := by
  unfold mirroredStatus
  rw [if_neg]
  rintro ⟨hs, -⟩
  rw [hs] at h
  cases h

theorem applyPlanSubscription_of_pays {b : PlanBusiness} {sub : PlanSubscription} (h : sub.status.pays = true)
    (now : Int) : sub.status.planStatus = some (applyPlanSubscription b sub now).planStatus ∧
      (applyPlanSubscription b sub now).stripeSubscriptionId = b.stripeSubscriptionId := by
  obtain ⟨t, ht, -⟩ := StripeStatus.planStatus_of_pays h
  unfold applyPlanSubscription
  rw [mirroredStatus_of_pays h, ht]
  exact ⟨rfl, rfl⟩

theorem ended_not_pays {status : StripeStatus} (h : status.isEnded = true) : status.pays = false := by
  cases status <;> first | rfl | cases h

/-! ## What is known -/

/-- This subscription bills the business, and the business's row says so. -/
structure Pays (s : PlanStore π) (id : Id) (sub : PlanSubscription) : Prop where
  current : s.business.stripeSubscriptionId = some id
  status : sub.status.planStatus = some s.business.planStatus

/-- Of the subscriptions that are up to date only the business's own pays. -/
structure OnePayer (s : PlanStore π) : Prop where
  payer : ∀ id sub, s.subscriptions id = some sub → sub.status.pays = true → s.UpToDate id → Pays s id sub
  counts : ∀ id count, s.handled id = some count → count ≤ s.changes id

theorem Pays.paysOther {id : Id} {sub : PlanSubscription} (h : Pays s id sub) (hp : sub.status.pays = true) {other : Id}
    (hne : id ≠ other) : s.business.paysOther other = true := by
  obtain ⟨t, ht, hlive⟩ := StripeStatus.planStatus_of_pays hp
  have hs : s.business.planStatus = t := Option.some.inj (h.status.symm.trans ht)
  simp [PlanBusiness.paysOther, h.current, hs, hlive, hne]

/-- The copy a handler read is Stripe's, if the status did not change since it took the lock. -/
def Fresh (s : PlanStore π) (id : Id) (count : Nat) (sub : PlanSubscription) : Prop :=
  count ≤ s.changes id ∧ (count = s.changes id → s.subscriptions id = some sub)

/-- What a handler knows where it is. -/
def Handles (p : π) (s : PlanStore π) : PlanPlace → Prop
  | .idle => True
  | .mirroring id count => s.lock = some p ∧ count ≤ s.changes id
  | .duplicate id count _ => s.lock = some p ∧ count ≤ s.changes id ∧ s.subscriptions id ≠ none
  | .judged id count _ => s.lock = some p ∧ count ≤ s.changes id ∧ s.subscriptions id ≠ none
  | .canceled id count => s.lock = some p ∧ count < s.changes id
  | .got id count sub => s.lock = some p ∧ Fresh s id count sub ∧ s.business.paysOther id = false
  | .replacing id count sub current =>
    s.lock = some p ∧ Fresh s id count sub ∧ s.business.paysOther id = false ∧ current ≠ id
  | .writing id count sub => s.lock = some p ∧ Fresh s id count sub ∧ s.business.paysOther id = false
  | .syncing id => s.lock = some p ∧ s.business.stripeSubscriptionId = some id
  | .synced id sub => s.lock = some p ∧ s.business.stripeSubscriptionId = some id ∧
    (s.UpToDate id → s.subscriptions id = some sub)

/-- What a step of `p` leaves to the holder of the lock. -/
structure LeavesPlan (p : π) (s s' : PlanStore π) : Prop where
  lock : ∀ q, q ≠ p → s.lock = some q → s'.lock = some q
  business : ∀ q, q ≠ p → s.lock = some q → s'.business = s.business ∧ s'.handled = s.handled
  changes : ∀ id, s.changes id ≤ s'.changes id
  copies : ∀ id sub, s.subscriptions id = some sub → s'.changes id = s.changes id → s'.subscriptions id = some sub
  known : ∀ id, s.subscriptions id ≠ none → s'.subscriptions id ≠ none

theorem LeavesPlan.fresh (h : LeavesPlan p s s') {id : Id} {count : Nat} {sub : PlanSubscription}
    (hf : Fresh s id count sub) : Fresh s' id count sub := by
  have hle := h.changes id
  refine ⟨hf.1.trans hle, fun he => h.copies id sub (hf.2 ?_) ?_⟩
  · have := hf.1
    omega
  · have := hf.1
    omega

theorem LeavesPlan.handles (h : LeavesPlan p s s') (hI : OnePayer s) (hne : q ≠ p) {x : PlanPlace}
    (hx : Handles q s x) : Handles q s' x := by
  cases x with
  | idle => trivial
  | mirroring id count => exact ⟨h.lock q hne hx.1, hx.2.trans (h.changes id)⟩
  | duplicate id count sub => exact ⟨h.lock q hne hx.1, hx.2.1.trans (h.changes id), h.known id hx.2.2⟩
  | judged id count refund => exact ⟨h.lock q hne hx.1, hx.2.1.trans (h.changes id), h.known id hx.2.2⟩
  | canceled id count => exact ⟨h.lock q hne hx.1, hx.2.trans_le (h.changes id)⟩
  | got id count sub =>
    obtain ⟨hl, hf, hb⟩ := hx
    exact ⟨h.lock q hne hl, h.fresh hf, by rw [(h.business q hne hl).1, hb]⟩
  | replacing id count sub current =>
    obtain ⟨hl, hf, hb, hc⟩ := hx
    exact ⟨h.lock q hne hl, h.fresh hf, by rw [(h.business q hne hl).1, hb], hc⟩
  | writing id count sub =>
    obtain ⟨hl, hf, hb⟩ := hx
    exact ⟨h.lock q hne hl, h.fresh hf, by rw [(h.business q hne hl).1, hb]⟩
  | syncing id =>
    obtain ⟨hl, hc⟩ := hx
    exact ⟨h.lock q hne hl, by rw [(h.business q hne hl).1, hc]⟩
  | synced id sub =>
    obtain ⟨hl, hc, hu⟩ := hx
    obtain ⟨hbusiness, hhandled⟩ := h.business q hne hl
    refine ⟨h.lock q hne hl, by rw [hbusiness, hc], fun hup => ?_⟩
    -- an event handled up to the count of now was handled up to the count of then
    have hup' : s.handled id = some (s'.changes id) := by rw [← hhandled]; exact hup
    have hle := hI.counts id _ hup'
    have heq : s'.changes id = s.changes id := le_antisymm hle (h.changes id)
    exact h.copies id sub (hu (by rw [PlanStore.UpToDate, hup', heq])) heq

/-! ## Steps -/

theorem LeavesPlan.of_eq (hl : s'.lock = s.lock) (hb : s'.business = s.business) (hh : s'.handled = s.handled)
    (hc : s'.changes = s.changes) (hs : s'.subscriptions = s.subscriptions) : LeavesPlan p s s' where
  lock _ _ h := by rw [hl, h]
  business _ _ _ := ⟨hb, hh⟩
  changes _ := by rw [hc]
  copies id sub h _ := by rw [hs, h]
  known id h := by rw [hs]; exact h

/-- The holder of the lock writes what it protects. -/
theorem LeavesPlan.of_holder (h : s.lock = some p) (hc : s'.changes = s.changes)
    (hs : s'.subscriptions = s.subscriptions) : LeavesPlan p s s' where
  lock q hne hq := absurd (Option.some.inj (hq.symm.trans h)) hne
  business q hne hq := absurd (Option.some.inj (hq.symm.trans h)) hne
  changes _ := by rw [hc]
  copies id sub h _ := by rw [hs, h]
  known id h := by rw [hs]; exact h

/-- The lock is taken. -/
theorem LeavesPlan.of_free (h : s.lock = none) (hc : s'.changes = s.changes) (hs : s'.subscriptions = s.subscriptions) :
    LeavesPlan p s s' where
  lock q _ hq := by rw [h] at hq; cases hq
  business q _ hq := by rw [h] at hq; cases hq
  changes _ := by rw [hc]
  copies id sub h _ := by rw [hs, h]
  known id h := by rw [hs]; exact h

theorem PlanStore.changes_le_setCopy (s : PlanStore π) (id : Id) (sub : PlanSubscription) (other : Id) :
    s.changes other ≤ (s.setCopy id sub).changes other := by
  show s.changes other ≤ Function.update s.changes id (s.changes id + 1) other
  by_cases h : other = id
  · subst h
    rw [Function.update_self]
    omega
  · rw [Function.update_of_ne h]

theorem PlanStore.changes_setCopy_self (s : PlanStore π) (id : Id) (sub : PlanSubscription) :
    (s.setCopy id sub).changes id = s.changes id + 1 := Function.update_self ..

theorem PlanStore.setCopy_self (s : PlanStore π) (id : Id) (sub : PlanSubscription) :
    (s.setCopy id sub).subscriptions id = some sub := Function.update_self ..

theorem PlanStore.setCopy_of_ne (s : PlanStore π) {id other : Id} (h : other ≠ id) (sub : PlanSubscription) :
    (s.setCopy id sub).changes other = s.changes other ∧
      (s.setCopy id sub).subscriptions other = s.subscriptions other :=
  ⟨Function.update_of_ne h .., Function.update_of_ne h ..⟩

theorem LeavesPlan.setCopy (id : Id) (sub : PlanSubscription) : LeavesPlan p s (s.setCopy id sub) where
  lock _ _ h := h
  business _ _ _ := ⟨rfl, rfl⟩
  changes := s.changes_le_setCopy id sub
  copies other t h hc := by
    have hne : other ≠ id := by
      rintro rfl
      rw [s.changes_setCopy_self] at hc
      omega
    rw [(s.setCopy_of_ne hne sub).2, h]
  known other h := by
    by_cases hid : other = id
    · subst hid
      rw [s.setCopy_self]
      exact fun h => by cases h
    · rw [(s.setCopy_of_ne hid sub).2]
      exact h

theorem LeavesPlan.setStatus (id : Id) (status : StripeStatus) : LeavesPlan p s (s.setStatus id status) := by
  unfold PlanStore.setStatus
  split
  · exact .of_eq rfl rfl rfl rfl rfl
  · exact .setCopy id _

/-- A status change leaves its subscription waiting for an event. -/
theorem OnePayer.setCopy (h : OnePayer s) (id : Id) (sub : PlanSubscription) : OnePayer (s.setCopy id sub) where
  payer other t hs hp hu := by
    have hu' : s.handled other = some ((s.setCopy id sub).changes other) := hu
    by_cases hid : other = id
    · subst hid
      rw [s.changes_setCopy_self] at hu'
      have := h.counts other _ hu'
      omega
    · obtain ⟨hcount, hsame⟩ := s.setCopy_of_ne hid sub
      rw [hsame] at hs
      rw [hcount] at hu'
      obtain ⟨hc, ht⟩ := h.payer other t hs hp hu'
      exact ⟨hc, ht⟩
  counts other count hc := (h.counts other count hc).trans (s.changes_le_setCopy id sub other)

theorem OnePayer.setStatus (h : OnePayer s) (id : Id) (status : StripeStatus) : OnePayer (s.setStatus id status) := by
  unfold PlanStore.setStatus
  split
  · exact h
  · exact h.setCopy id _

theorem OnePayer.of_eq (h : OnePayer s) (hb : s'.business = s.business) (hh : s'.handled = s.handled)
    (hc : s'.changes = s.changes) (hs : s'.subscriptions = s.subscriptions) : OnePayer s' where
  payer id sub hid hp hu := by
    unfold PlanStore.UpToDate at hu
    rw [hs] at hid
    rw [hh, hc] at hu
    obtain ⟨hcur, ht⟩ := h.payer id sub hid hp hu
    exact ⟨by rw [hb, hcur], by rw [hb, ht]⟩
  counts id count hid := by
    rw [hh] at hid
    rw [hc]
    exact h.counts id count hid

/-- An event of a subscription that does not pay, or whose status changed meanwhile, changes nothing. -/
theorem OnePayer.finish (h : OnePayer s) {id : Id} {count : Nat} (hle : count ≤ s.changes id)
    (hno : count = s.changes id → ∀ sub, s.subscriptions id = some sub → sub.status.pays = false) :
    OnePayer (s.finish id count s.business) where
  payer other sub hs hp hu := by
    have hu' : Function.update s.handled id (some count) other = some (s.changes other) := hu
    by_cases hid : other = id
    · subst hid
      rw [Function.update_self] at hu'
      rw [hno (Option.some.inj hu') sub hs] at hp
      cases hp
    · rw [Function.update_of_ne hid] at hu'
      obtain ⟨hc, ht⟩ := h.payer other sub hs hp hu'
      exact ⟨hc, ht⟩
  counts other n hn := by
    have hn' : Function.update s.handled id (some count) other = some n := hn
    by_cases hid : other = id
    · subst hid
      rw [Function.update_self] at hn'
      exact Option.some.inj hn' ▸ hle
    · rw [Function.update_of_ne hid] at hn'
      exact h.counts other n hn'

/-- A subscription is adopted when the business pays through no other. -/
theorem OnePayer.adopt (h : OnePayer s) {id : Id} {count : Nat} {sub : PlanSubscription} (hf : Fresh s id count sub)
    (hb : s.business.paysOther id = false) (now : Int) :
    OnePayer (s.finish id count (ClientBridge.adopt s.business id sub now)) where
  payer other t hs hp hu := by
    have hu' : Function.update s.handled id (some count) other = some (s.changes other) := hu
    by_cases hid : other = id
    · subst hid
      rw [Function.update_self] at hu'
      obtain rfl : sub = t := Option.some.inj ((hf.2 (Option.some.inj hu')).symm.trans hs)
      obtain ⟨ht, hc⟩ := applyPlanSubscription_of_pays
        (b := { s.business with stripeSubscriptionId := some other }) hp now
      exact ⟨hc, ht⟩
    · rw [Function.update_of_ne hid] at hu'
      rw [(h.payer other t hs hp hu').paysOther hp hid] at hb
      cases hb
  counts other n hn := by
    have hn' : Function.update s.handled id (some count) other = some n := hn
    by_cases hid : other = id
    · subst hid
      rw [Function.update_self] at hn'
      exact Option.some.inj hn' ▸ hf.1
    · rw [Function.update_of_ne hid] at hn'
      exact h.counts other n hn'

theorem OnePayer.sync (h : OnePayer s) {id : Id} {sub : PlanSubscription}
    (hc : s.business.stripeSubscriptionId = some id) (hcopy : s.UpToDate id → s.subscriptions id = some sub) (now : Int) :
    OnePayer ({ s with business := applyPlanSubscription s.business sub now, lock := none } : PlanStore π) where
  payer other t hs hp hu := by
    obtain ⟨hcur, -⟩ := h.payer other t hs hp hu
    obtain rfl : id = other := Option.some.inj (hc.symm.trans hcur)
    obtain rfl : sub = t := Option.some.inj ((hcopy hu).symm.trans hs)
    obtain ⟨ht, hid⟩ := applyPlanSubscription_of_pays (b := s.business) hp now
    exact ⟨hid.trans hc, ht⟩
  counts := h.counts

theorem PlanStep.leaves [DecidableEq π] {x x' : PlanPlace} (hs : PlanStep p s x s' x') (hx : Handles p s x) : LeavesPlan p s s' := by
  cases hs with
  | checkout h => exact .setCopy _ _
  | change status => exact .setStatus _ status
  | lock hl => exact .of_free hl rfl rfl
  | ended hb h he => exact .of_holder hx.1 rfl rfl
  | duplicate hb h he => exact .of_eq rfl rfl rfl rfl rfl
  | judge hc h => exact .of_eq rfl rfl rfl rfl rfl
  | refund => exact .of_eq rfl rfl rfl rfl rfl
  | cancel => exact .setStatus _ .canceled
  | canceled => exact .of_holder hx.1 rfl rfl
  | get hb h => exact .of_eq rfl rfl rfl rfl rfl
  | stale hc hne he => exact .of_holder hx.1 rfl rfl
  | replace hc hne hl h he => exact .of_eq rfl rfl rfl rfl rfl
  | replaced => exact .setStatus _ .canceled
  | keep h => exact .of_eq rfl rfl rfl rfl rfl
  | write now => exact .of_holder hx.1 rfl rfl
  | syncLock hl hc => exact .of_free hl rfl rfl
  | syncGet h => exact .of_eq rfl rfl rfl rfl rfl
  | syncWrite now => exact .of_holder hx.1 rfl rfl
  | rollback =>
    refine ⟨fun q hne hq => ?_, fun _ _ _ => ⟨rfl, rfl⟩, fun _ => le_refl _, fun _ _ h _ => h, fun _ h => h⟩
    show (if s.lock = some p then none else s.lock) = some q
    rw [if_neg, hq]
    rw [hq]
    exact fun h => hne (Option.some.inj h)

theorem PlanStep.onePayer [DecidableEq π] {x x' : PlanPlace} (hs : PlanStep p s x s' x') (hI : OnePayer s) (hx : Handles p s x) :
    OnePayer s' := by
  cases hs with
  | checkout h => exact hI.setCopy _ _
  | change status => exact hI.setStatus _ status
  | lock hl => exact hI.of_eq rfl rfl rfl rfl
  | ended hb h he =>
    exact hI.finish hx.2 fun _ t ht => ended_not_pays (Option.some.inj (h.symm.trans ht) ▸ he)
  | duplicate hb h he => exact hI
  | judge hc h => exact hI
  | refund => exact hI.of_eq rfl rfl rfl rfl
  | cancel => exact hI.setStatus _ .canceled
  | canceled => exact hI.finish hx.2.le fun h => absurd h hx.2.ne
  | get hb h => exact hI
  | stale hc hne he =>
    exact hI.finish hx.2.1.1 fun h t ht => ended_not_pays (Option.some.inj ((hx.2.1.2 h).symm.trans ht) ▸ he)
  | replace hc hne hl h he => exact hI
  | replaced => exact hI.setStatus _ .canceled
  | keep h => exact hI
  | write now => exact hI.adopt hx.2.1 hx.2.2 now
  | syncLock hl hc => exact hI.of_eq rfl rfl rfl rfl
  | syncGet h => exact hI
  | syncWrite now => exact hI.sync hx.2.1 hx.2.2 now
  | rollback => exact hI.of_eq rfl rfl rfl rfl

/-- The status of a subscription that is there changes. -/
theorem PlanStore.changes_setStatus {id : Id} (h : s.subscriptions id ≠ none) (status : StripeStatus) :
    (s.setStatus id status).changes id = s.changes id + 1 := by
  unfold PlanStore.setStatus
  split
  · next hn => exact absurd hn h
  · exact s.changes_setCopy_self id _

theorem PlanStore.setStatus_rows (s : PlanStore π) (id : Id) (status : StripeStatus) :
    (s.setStatus id status).business = s.business ∧ (s.setStatus id status).lock = s.lock := by
  unfold PlanStore.setStatus
  split <;> exact ⟨rfl, rfl⟩

theorem PlanStep.handles [DecidableEq π] {x x' : PlanPlace} (hs : PlanStep p s x s' x') (hx : Handles p s x) : Handles p s' x' := by
  cases hs with
  | checkout h => trivial
  | change status => trivial
  | lock hl => exact ⟨rfl, le_refl _⟩
  | ended hb h he => trivial
  | duplicate hb h he => exact ⟨hx.1, hx.2, fun hn => by rw [hn] at h; cases h⟩
  | judge hc h => exact hx
  | refund => exact hx
  | @cancel id count =>
    obtain ⟨hl, hle, hknown⟩ := hx
    refine ⟨by rw [(s.setStatus_rows id .canceled).2, hl], ?_⟩
    rw [PlanStore.changes_setStatus hknown]
    omega
  | canceled => trivial
  | get hb h => exact ⟨hx.1, ⟨hx.2, fun _ => h⟩, hb⟩
  | stale hc hne he => trivial
  | replace hc hne hl h he => exact ⟨hx.1, hx.2.1, hx.2.2, hne⟩
  | @replaced id count sub current =>
    obtain ⟨hl, hf, hb, hne⟩ := hx
    obtain ⟨hbusiness, hlock⟩ := s.setStatus_rows current .canceled
    exact ⟨by rw [hlock, hl], (LeavesPlan.setStatus (p := p) current .canceled).fresh hf, by rw [hbusiness, hb]⟩
  | keep h => exact hx
  | write now => trivial
  | syncLock hl hc => exact ⟨rfl, hc⟩
  | syncGet h => exact ⟨hx.1, hx.2, fun _ => h⟩
  | syncWrite now => trivial
  | rollback => trivial

theorem plan_kept [DecidableEq π] : Kept (π := π) PlanStep OnePayer Handles where
  store hs hI hx := hs.onePayer hI hx
  own hs _ hx := hs.handles hx
  others hs hne hI hx hy := (hs.leaves hx).handles hI hne hy

/-! ## Runs -/

/-- No handler runs, and no event was handled yet. -/
structure PlanOpen (w : World π (PlanStore π) PlanPlace) : Prop where
  idle : ∀ p, w.place p = .idle
  handled : ∀ id, w.store.handled id = none

theorem PlanOpen.knows {w : World π (PlanStore π) PlanPlace} (h : PlanOpen w) : Knows OnePayer Handles w := by
  refine ⟨⟨fun id _ _ _ hu => ?_, fun id count hc => ?_⟩, fun p => ?_⟩
  · rw [PlanStore.UpToDate, h.handled] at hu
    cases hu
  · rw [h.handled] at hc
    cases hc
  · rw [h.idle]
    trivial

/-- When an event of every subscription was handled after its last status change, at most one
pays, and it is the business's. -/
theorem one_plan_subscription_bills [DecidableEq π] {w w' : World π (PlanStore π) PlanPlace} {ps : List π} (h0 : PlanOpen w)
    (hr : Run (Interleaved PlanStep) w ps w')
    (hall : ∀ id sub, w'.store.subscriptions id = some sub → w'.store.UpToDate id) :
    (∀ id id' sub sub', w'.store.subscriptions id = some sub → w'.store.subscriptions id' = some sub' →
      sub.status.pays = true → sub'.status.pays = true → id = id') ∧
    ∀ id sub, w'.store.subscriptions id = some sub → sub.status.pays = true →
      w'.store.business.stripeSubscriptionId = some id ∧
      sub.status.planStatus = some w'.store.business.planStatus := by
  obtain ⟨hI, -⟩ := plan_kept.run hr h0.knows
  have hpays : ∀ id sub, w'.store.subscriptions id = some sub → sub.status.pays = true → Pays w'.store id sub :=
    fun id sub hs hp => hI.payer id sub hs hp (hall id sub hs)
  constructor
  · intro id id' sub sub' hs hs' hp hp'
    exact Option.some.inj ((hpays id sub hs hp).current.symm.trans (hpays id' sub' hs' hp').current)
  · intro id sub hs hp
    exact ⟨(hpays id sub hs hp).current, (hpays id sub hs hp).status⟩

/-- A business in its trial. -/
def trialStore {π : Type} : PlanStore π where
  business := ⟨none, .trialing, none, 100⟩
  lock := none
  subscriptions := fun _ => none
  refunded := []
  changes := fun _ => 0
  handled := fun _ => none

def trialWorld {π : Type} : World π (PlanStore π) PlanPlace := ⟨trialStore, fun _ => .idle⟩

def teamSubscription : PlanSubscription := ⟨.active, some .team, some 7⟩

def twinSubscription : PlanSubscription := ⟨.active, some .team, some 9⟩

/-- The first subscription is the business's, and a second one was made meanwhile. -/
def twinWorld : World Bool (PlanStore Bool) PlanPlace where
  store :=
    { business := ⟨some "sub", .active, some .team, 100⟩
      lock := none
      subscriptions := Function.update (Function.update (fun _ => none) "sub" (some teamSubscription)) "twin"
        (some twinSubscription)
      refunded := []
      changes := Function.update (Function.update (fun _ => 0) "sub" 1) "twin" 1
      handled := Function.update (fun _ => none) "sub" (some 1) }
  place := fun _ => .idle

/-- A second Checkout makes a subscription while the event of the first is handled. -/
theorem twin_made : Run (Interleaved PlanStep) trialWorld [false, false, true, false, false, false] twinWorld := by
  have hr : Run (Interleaved PlanStep) trialWorld [false, false, true, false, false, false] _ :=
    .cons (.from rfl (@PlanStep.checkout Bool _ false _ "sub" teamSubscription rfl)) <|
    .cons (.from rfl (@PlanStep.lock Bool _ false _ "sub" rfl)) <|
    .cons (.from rfl (@PlanStep.checkout Bool _ true _ "twin" twinSubscription rfl)) <|
    .cons (.from rfl (@PlanStep.get Bool _ false _ "sub" _ teamSubscription rfl rfl)) <|
    .cons (.from rfl (@PlanStep.keep Bool _ false _ "sub" _ teamSubscription (fun _ h => by cases h))) <|
    .cons (.from rfl (@PlanStep.write Bool _ false _ "sub" _ teamSubscription 8)) .nil
  refine Eq.mp (congrArg _ ?_) hr
  refine congrArg (World.mk _) (funext fun p => ?_)
  cases p <;> rfl

/-- The second one's event finds the first paying, refunds and cancels it, and the cancel's event is
handled too: the first one bills alone. -/
theorem teamSubscription_bills : ∃ (w' : World Bool (PlanStore Bool) PlanPlace) (ps : List Bool),
    Run (Interleaved PlanStep) trialWorld ps w' ∧ w'.store.refunded = ["twin"] ∧
    w'.store.subscriptions "twin" = some { twinSubscription with status := .canceled } ∧
    w'.store.business.stripeSubscriptionId = some "sub" ∧ some PlanStatus.active = some w'.store.business.planStatus := by
  have hr : Run (Interleaved PlanStep) twinWorld [true, true, true, true, true, true, true, true] _ :=
    .cons (.from rfl (@PlanStep.lock Bool _ true _ "twin" rfl)) <|
    .cons (.from rfl (@PlanStep.duplicate Bool _ true _ "twin" _ twinSubscription rfl rfl rfl)) <|
    .cons (.from rfl (@PlanStep.judge Bool _ true _ "twin" _ twinSubscription "sub" teamSubscription rfl rfl)) <|
    .cons (.from rfl (@PlanStep.refund Bool _ true _ "twin" _)) <|
    .cons (.from rfl (@PlanStep.cancel Bool _ true _ "twin" _)) <|
    .cons (.from rfl (@PlanStep.canceled Bool _ true _ "twin" _)) <|
    .cons (.from rfl (@PlanStep.lock Bool _ true _ "twin" rfl)) <|
    .cons (.from rfl (@PlanStep.ended Bool _ true _ "twin" _ { twinSubscription with status := .canceled } rfl rfl rfl))
      .nil
  refine ⟨_, _, twin_made.append hr, rfl, rfl, (one_plan_subscription_bills ⟨fun _ => rfl, fun _ => rfl⟩
    (twin_made.append hr) fun id sub hs => ?_).2 "sub" teamSubscription rfl rfl⟩
  obtain rfl | hsub := eq_or_ne id "sub"
  · rfl
  obtain rfl | htwin := eq_or_ne id "twin"
  · rfl
  · have hs' : Function.update twinWorld.store.subscriptions "twin" (some { twinSubscription with status := .canceled }) id =
      some sub := hs
    rw [Function.update_of_ne htwin] at hs'
    have hs' : Function.update (Function.update (fun _ => none) "sub" (some teamSubscription)) "twin"
      (some twinSubscription) id = some sub := hs'
    rw [Function.update_of_ne htwin, Function.update_of_ne hsub] at hs'
    cases hs'

end ClientBridge
