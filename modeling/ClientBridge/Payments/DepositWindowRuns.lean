import ClientBridge.Payments.DepositWindows

/-!
# A released booking had its time to pay

While the job holds a booking, none of its deposits settles, and one that went through at Stripe
is not canceled there: a booking is only released unpaid.  That the client had half an hour, and
that a deposit settled later goes back, holds under the conditions of `WindowStep`
(`deposit_window_kept`).
-/

namespace ClientBridge

open Runs DepositStore

variable {π : Type} {p q : π} {s s' : DepositStore π}

/-! ## Deposits, and payments at Stripe -/

/-- What the tables say of payments, Stripe says too; and the times are noted. -/
structure DepositsKept (s : DepositStore π) : Prop where
  paid : ∀ d ∈ s.deposits, d.paid = true → s.intents d.ref = some .succeeded
  canceled : ∀ d ∈ s.deposits, d.status = .canceled → s.intents d.ref = some .canceled
  seated : ∀ b, s.booking = some b → b.status.seated = true → s.seatedAt ≠ none
  opened : s.deposits ≠ [] → s.openedAt ≠ none

/-- A payment that went through or was canceled at Stripe stays so. -/
def IntentsStay (s s' : DepositStore π) : Prop :=
  ∀ r state, state ≠ .open → s.intents r = some state → s'.intents r = some state

theorem IntentsStay.of_eq (h : s'.intents = s.intents) : IntentsStay s s' := fun _ _ _ hr => by rw [h, hr]

theorem intentsStay_setIntent {ref : Id} {state : IntentState}
    (h : ∀ old, old ≠ .open → s.intents ref = some old → old = state) : IntentsStay s (s.setIntent ref state) := by
  intro r old ho hr
  show Function.update s.intents ref (some state) r = some old
  by_cases he : r = ref
  · subst he
    rw [Function.update_self, h old ho hr]
  · rw [Function.update_of_ne he, hr]

/-- A deposit that a step leaves was there before, as paid as it is. -/
def DepositsFrom (s s' : DepositStore π) : Prop :=
  ∀ d' ∈ s'.deposits, d'.paid = true → ∃ d ∈ s.deposits, d.ref = d'.ref ∧ d.paid = true

theorem DepositsFrom.of_eq (h : s'.deposits = s.deposits) : DepositsFrom s s' :=
  fun d hd hp => ⟨d, h ▸ hd, rfl, hp⟩

theorem DepositsFrom.of_map {f : DepositPayment → DepositPayment} (hf : ∀ d, (f d).ref = d.ref ∧ (f d).paid = d.paid)
    (h : s'.deposits = s.deposits.map f) : DepositsFrom s s' := by
  intro d' hd' hp
  rw [h] at hd'
  obtain ⟨d, hd, rfl⟩ := List.mem_map.1 hd'
  exact ⟨d, hd, (hf d).1.symm, (hf d).2 ▸ hp⟩

theorem markCanceled_same (refs : List Id) (d : DepositPayment) :
    (if d.ref ∈ refs then { d with status := .canceled } else d).ref = d.ref ∧
      (if d.ref ∈ refs then { d with status := .canceled } else d).paid = d.paid := by
  split <;> exact ⟨rfl, rfl⟩

theorem openDeposit_from (time : Int) (ref : Id) (done : List Id) : DepositsFrom s (s.openDeposit time ref done) := by
  intro d' hd' hp
  obtain hd' | hd' := List.mem_append.1 hd'
  · have hfrom : DepositsFrom s (s.markCanceled done) := .of_map (markCanceled_same done) rfl
    exact hfrom d' hd' hp
  · obtain rfl := List.mem_singleton.1 hd'
    cases hp

/-- A deposit that was open is due to be canceled; one that was paid is among those or succeeded. -/
theorem mem_openRefs {d : DepositPayment} (hd : d ∈ s.deposits) (h : d.status = .pending ∨ d.status = .failed) :
    d.ref ∈ s.openRefs :=
  List.mem_map.2 ⟨d, List.mem_filter.2 ⟨hd, by simpa using h⟩, rfl⟩

theorem OnlineBooking.due_iff {b : OnlineBooking} {deposits : List DepositPayment} {now : Int} :
    b.due deposits now = true ↔ b.depositStatus = .pending ∧ b.status.seated = true ∧ b.createdAt < now - unpaidTtl ∧
      now < b.startsAt ∧ deposits ≠ [] ∧ ∀ d ∈ deposits, d.status ≠ .succeeded := by
  simp [OnlineBooking.due, and_assoc]

/-! ## What a transaction knows -/

/-- The job on a booking it has locked: it is due, and what was paid it has still to try at Stripe. -/
structure Releases (p : π) (s : DepositStore π) (now : Int) (todo : List Id) (ok : Bool) : Prop where
  lock : s.bookingLock = some p
  booking : ∃ b, s.booking = some b ∧ b.status.seated = true ∧ b.createdAt < now - unpaidTtl
  deposits : s.deposits ≠ []
  paid : ok = true → ∀ d ∈ s.deposits, d.paid = true → d.ref ∈ todo

def DepositKnows (p : π) (s : DepositStore π) : DepositPlace → Prop
  | .canceling c todo done ok => (∀ r ∈ done, s.intents r = some .canceled) ∧
    match c with
    | .reap now => Releases p s now todo ok
    | .open _ _ => True
  | .paying ref => s.intents ref = some .succeeded
  | .locked ref => s.intents ref = some .succeeded
  | .settling ref _ _ => s.intents ref = some .succeeded
  | .failing ref canceled => canceled = true → s.intents ref = some .canceled
  | _ => True

/-- What a step of `p` leaves to the others: Stripe's word, and the booking to who locked it. -/
structure LeavesDeposits (p : π) (s s' : DepositStore π) : Prop where
  intents : IntentsStay s s'
  lock : ∀ q, q ≠ p → s.bookingLock = some q → s'.bookingLock = some q
  booking : ∀ q, q ≠ p → s.bookingLock = some q → ∀ b, s.booking = some b →
    s'.booking = some b ∧ (s.deposits ≠ [] → s'.deposits ≠ []) ∧ DepositsFrom s s'

theorem LeavesDeposits.knows (h : LeavesDeposits p s s') (hne : q ≠ p) {y : DepositPlace} (hy : DepositKnows q s y) :
    DepositKnows q s' y := by
  have hstate : ∀ {r state}, state ≠ IntentState.open → s.intents r = some state → s'.intents r = some state :=
    fun ho hr => h.intents _ _ ho hr
  cases y with
  | canceling c todo done ok =>
    obtain ⟨hdone, hc⟩ := hy
    refine ⟨fun r hr => hstate (by decide) (hdone r hr), ?_⟩
    cases c with
    | «open» time ref => trivial
    | reap now =>
      obtain ⟨b, hb, hs, ht⟩ := hc.booking
      obtain ⟨hb', hne', hfrom⟩ := h.booking q hne hc.lock b hb
      refine ⟨h.lock q hne hc.lock, ⟨b, hb', hs, ht⟩, hne' hc.deposits, fun hok d' hd' hp => ?_⟩
      obtain ⟨d, hd, hr, hpd⟩ := hfrom d' hd' hp
      exact hr ▸ hc.paid hok d hd hpd
  | paying ref => exact hstate (by decide) hy
  | locked ref => exact hstate (by decide) hy
  | settling ref rebuilt seen => exact hstate (by decide) hy
  | failing ref canceled => exact fun hc => hstate (by decide) (hy hc)
  | _ => trivial

/-- The booking was free, or is the step's own. -/
theorem LeavesDeposits.of_own (hi : IntentsStay s s') (h : s.bookingLock = none ∨ s.bookingLock = some p) :
    LeavesDeposits p s s' := by
  have hno : ∀ q, q ≠ p → s.bookingLock ≠ some q := by
    intro q hne hq
    obtain h | h := h
    · rw [h] at hq
      cases hq
    · exact hne (Option.some.inj (hq.symm.trans h))
  exact ⟨hi, fun q hne hq => absurd hq (hno q hne), fun q hne hq => absurd hq (hno q hne)⟩

/-- The booking is not written, and at most own locks are given back. -/
theorem LeavesDeposits.of_deposits [DecidableEq π] (hi : IntentsStay s s') (hb : s'.booking = s.booking)
    (hl : s'.bookingLock = s.bookingLock ∨ s'.bookingLock = if s.bookingLock = some p then none else s.bookingLock)
    (hd : s.deposits ≠ [] → s'.deposits ≠ []) (hf : DepositsFrom s s') : LeavesDeposits p s s' := by
  refine ⟨hi, fun q hne hq => ?_, fun q hne hq b hb' => ⟨by rw [hb, hb'], hd, hf⟩⟩
  obtain hl | hl := hl
  · rw [hl, hq]
  · rw [hl, hq, if_neg fun h => hne (Option.some.inj h)]

theorem map_ne_nil {f : DepositPayment → DepositPayment} {l : List DepositPayment} (h : l ≠ []) : l.map f ≠ [] :=
  fun he => h (List.map_eq_nil_iff.1 he)

section
variable [DecidableEq π] {x x' : DepositPlace}

theorem DepositStep.leaves (hs : DepositStep p s x s' x') (hx : DepositKnows p s x) : LeavesDeposits p s s' := by
  have hsame : LeavesDeposits p s s := .of_deposits (.of_eq rfl) rfl (.inl rfl) (fun h => h) (.of_eq rfl)
  cases hs with
  | tick h => exact .of_deposits (.of_eq rfl) rfl (.inl rfl) (fun h => h) (.of_eq rfl)
  | book hb hs hi =>
    exact .of_deposits (intentsStay_setIntent fun _ _ h => by rw [hi] at h; cases h) rfl (.inl rfl) (fun h => h) (.of_eq rfl)
  | bookPlain hb hs => exact hsame
  | booked hb => exact ⟨.of_eq rfl, fun _ _ h => h, fun _ _ _ b hb' => by rw [hb] at hb'; cases hb'⟩
  | seat hb hw hl => exact .of_own (.of_eq rfl) (.inl hl)
  | payDeposit hb hd hl => exact .of_own (.of_eq rfl) (.inl hl)
  | collectDeposit hb => exact hsame
  | create hi =>
    exact .of_deposits (intentsStay_setIntent fun _ _ h => by rw [hi] at h; cases h) rfl (.inl rfl) (fun h => h) (.of_eq rfl)
  | supersede hl => exact .of_deposits (.of_eq rfl) rfl (.inl rfl) (fun h => h) (.of_eq rfl)
  | charge => exact hsame
  | @cancel c r todo done ok hi =>
    refine .of_deposits (intentsStay_setIntent fun old ho h => ?_) rfl (.inl rfl) (fun h => h) (.of_eq rfl)
    cases old with
    | «open» => exact absurd rfl ho
    | succeeded => exact absurd h hi
    | canceled => rfl
  | refuse hi => exact hsame
  | @opened time ref done hr =>
    exact .of_deposits (.of_eq rfl) rfl (.inr rfl) (fun _ h => by simp [openDeposit, DepositStore.release] at h)
      (openDeposit_from time ref done)
  | @inProgress time ref done hi =>
    refine .of_deposits (intentsStay_setIntent fun old ho h => ?_) rfl (.inr rfl) (fun h => h) (.of_eq rfl)
    cases old with
    | «open» => exact absurd rfl ho
    | succeeded => exact absurd h hi
    | canceled => rfl
  | scan => exact hsame
  | lockDue hb hd hl hf => exact .of_own (.of_eq rfl) (.inl hl)
  | released hb => exact .of_own (.of_eq rfl) (.inr hx.2.lock)
  | kept => exact .of_deposits (.of_eq rfl) rfl (.inr rfl) map_ne_nil (.of_map (markCanceled_same _) rfl)
  | pay hi =>
    exact .of_deposits (intentsStay_setIntent fun _ ho h => absurd (Option.some.inj (hi.symm.trans h)).symm ho) rfl
      (.inl rfl) (fun h => h) (.of_eq rfl)
  | lapse hi =>
    exact .of_deposits (intentsStay_setIntent fun _ ho h => absurd (Option.some.inj (hi.symm.trans h)).symm ho) rfl
      (.inl rfl) (fun h => h) (.of_eq rfl)
  | settle hd hs hi => exact hsame
  | lockPayment hl => exact .of_deposits (.of_eq rfl) rfl (.inl rfl) (fun h => h) (.of_eq rfl)
  | readBooking hb => exact hsame
  | rebuild hr hi hb => exact hsame
  | @settled ref rebuilt seen b pending hb hl hr =>
    refine .of_own (.of_eq ?_) (.inl hl)
    show ((s.settlePayment ref rebuilt).settleDeposit b seen pending).intents = s.intents
    unfold settleDeposit refundDeposits settlePayment
    dsimp only
    split <;> split <;> (try split) <;> rfl
  | fail hd hs hi => exact hsame
  | @failed ref canceled hl =>
    refine .of_deposits (.of_eq rfl) rfl (.inl rfl) map_ne_nil (.of_map (fun d => ?_) rfl)
    split <;> exact ⟨rfl, rfl⟩
  | refundEnds => exact .of_deposits (.of_eq rfl) rfl (.inl rfl) (fun h => h) (.of_eq rfl)
  | close hb ho hs hl => exact .of_own (.of_eq rfl) (.inl hl)
  | rollback => exact .of_deposits (.of_eq rfl) rfl (.inr rfl) (fun h => h) (.of_eq rfl)

end

/-! ## What a settlement writes -/

theorem mem_settlePayment {ref : Id} {rebuilt : Bool} {d : DepositPayment} (h : d ∈ (s.settlePayment ref rebuilt).deposits) :
    d.ref = ref ∧ d.status = .succeeded ∨ d ∈ s.deposits := by
  unfold settlePayment at h
  split at h
  · obtain h | h := List.mem_append.1 h
    · exact .inr h
    · obtain rfl := List.mem_singleton.1 h
      exact .inl ⟨rfl, rfl⟩
  · obtain ⟨d', hd', rfl⟩ := List.mem_map.1 h
    by_cases hr : d'.ref = ref
    · rw [if_pos hr]
      exact .inl ⟨hr, rfl⟩
    · rw [if_neg hr]
      exact .inr hd'

/-- A settled deposit goes back when the visit was read as canceled, and no refund of it is pending. -/
theorem mem_settleDeposit {b seen : OnlineBooking} {pending : Bool} {d' : DepositPayment}
    (h : d' ∈ (s.settleDeposit b seen pending).deposits) :
    ∃ d ∈ s.deposits, d'.ref = d.ref ∧ d'.status = d.status ∧ d'.paid = d.paid ∧ (d.refunded = true → d'.refunded = true) ∧
      (seen.settled.2 = true → s.refundPending = false → d.status = .succeeded → d'.refunded = true) := by
  unfold settleDeposit at h
  dsimp only at h
  split at h
  next hs =>
    unfold refundDeposits at h
    split at h
    next hp => exact ⟨d', h, rfl, rfl, rfl, fun hr => hr, fun _ hn => absurd (hn.symm.trans hp) (by decide)⟩
    next hp =>
      obtain ⟨d, hd, rfl⟩ := List.mem_map.1 h
      refine ⟨d, hd, ?_⟩
      by_cases hsu : d.status = .succeeded
      · rw [if_pos hsu]
        exact ⟨rfl, rfl, rfl, fun _ => rfl, fun _ _ _ => rfl⟩
      · rw [if_neg hsu]
        exact ⟨rfl, rfl, rfl, fun hr => hr, fun _ _ h => absurd h hsu⟩
  next hs => exact ⟨d', h, rfl, rfl, rfl, fun hr => hr, fun h => absurd h hs⟩

theorem settleDeposit_other (s : DepositStore π) (ref : Id) (rebuilt : Bool) (b seen : OnlineBooking) (pending : Bool) :
    ((s.settlePayment ref rebuilt).settleDeposit b seen pending).intents = s.intents ∧
    ((s.settlePayment ref rebuilt).settleDeposit b seen pending).booking = some { b with depositStatus := seen.settled.1 } ∧
    ((s.settlePayment ref rebuilt).settleDeposit b seen pending).seatedAt = s.seatedAt ∧
    ((s.settlePayment ref rebuilt).settleDeposit b seen pending).released = s.released := by
  unfold settleDeposit refundDeposits settlePayment
  dsimp only
  split <;> split <;> (try split) <;> exact ⟨rfl, rfl, rfl, rfl⟩

theorem settleDeposit_openedAt (s : DepositStore π) (ref : Id) (rebuilt : Bool) (b seen : OnlineBooking) (pending : Bool) :
    ((s.settlePayment ref rebuilt).settleDeposit b seen pending).openedAt =
      if rebuilt then some (s.openedAt.getD s.clock) else s.openedAt := by
  unfold settleDeposit refundDeposits settlePayment
  dsimp only
  split <;> split <;> (try split) <;> rfl

theorem settledDeposits_nil {ref : Id} {b seen : OnlineBooking} {pending : Bool} (h : s.deposits = []) :
    ((s.settlePayment ref false).settleDeposit b seen pending).deposits = [] := by
  refine List.eq_nil_iff_forall_not_mem.2 fun d' hd' => ?_
  obtain ⟨d, hd, -⟩ := mem_settleDeposit hd'
  have hnil : (s.settlePayment ref false).deposits = [] := by
    show s.deposits.map _ = []
    rw [h]
    rfl
  rw [hnil] at hd
  cases hd

/-! ## Steps -/

theorem DepositsKept.of_eq (h : DepositsKept s) (hi : IntentsStay s s') (hd : s'.deposits = s.deposits)
    (hb : s'.booking = s.booking) (hs : s'.seatedAt = s.seatedAt) (ho : s'.openedAt = s.openedAt) : DepositsKept s' where
  paid d hmem hp := hi _ _ (by decide) (h.paid d (hd ▸ hmem) hp)
  canceled d hmem hc := hi _ _ (by decide) (h.canceled d (hd ▸ hmem) hc)
  seated b hb' hs' := by rw [hs]; exact h.seated b (hb ▸ hb') hs'
  opened hne := by rw [ho]; exact h.opened (hd ▸ hne)

/-- Canceled payments are marked so once Stripe has canceled them. -/
theorem markCanceled_kept {done : List Id} (h : DepositsKept s) (hdone : ∀ r ∈ done, s.intents r = some .canceled) :
    ∀ d ∈ (s.markCanceled done).deposits, (d.paid = true → s.intents d.ref = some .succeeded) ∧
      (d.status = .canceled → s.intents d.ref = some .canceled) := by
  intro d hd
  obtain ⟨d₀, hd₀, rfl⟩ := List.mem_map.1 hd
  obtain ⟨href, hpaid⟩ := markCanceled_same done d₀
  rw [href, hpaid]
  refine ⟨h.paid d₀ hd₀, fun hc => ?_⟩
  by_cases hr : d₀.ref ∈ done
  · exact hdone _ hr
  · rw [if_neg hr] at hc
    exact h.canceled d₀ hd₀ hc

theorem BookingStatus.open_of_seated {status : BookingStatus} (h : status.seated = true) : status.open = true := by
  cases status with
  | pending => rfl
  | confirmed => rfl
  | _ => cases h

section
variable [DecidableEq π] {x x' : DepositPlace}

theorem DepositStep.depositsKept (hs : DepositStep p s x s' x') (hx : DepositKnows p s x) (h : DepositsKept s) :
    DepositsKept s' := by
  have hi := (hs.leaves hx).intents
  cases hs with
  | @booked time status ref startsAt hb =>
    refine ⟨fun d hd hp => ?_, fun d hd hc => ?_, fun b hb' hseat => ?_, fun hne => ?_⟩
    · obtain ⟨r, -, rfl⟩ := List.mem_map.1 hd
      cases hp
    · obtain ⟨r, -, rfl⟩ := List.mem_map.1 hd
      cases hc
    · obtain rfl := Option.some.inj (show some _ = some b from hb')
      show (if status.seated then some time else none) ≠ none
      rw [if_pos hseat]
      exact Option.some_ne_none _
    · cases ref with
      | none => exact absurd rfl hne
      | some r => exact Option.some_ne_none _
  | seat hb hw hl => exact ⟨h.paid, h.canceled, fun _ _ _ => Option.some_ne_none _, h.opened⟩
  | @opened time ref done hr =>
    have hmark := markCanceled_kept h hx.1
    have hmem : ∀ d ∈ (s.openDeposit time ref done).deposits, d ∈ (s.markCanceled done).deposits ∨
        d = ⟨ref, .pending, false, false⟩ := fun d hd => (List.mem_append.1 hd).imp id List.mem_singleton.1
    refine ⟨fun d hd hp => ?_, fun d hd hc => ?_, h.seated, fun _ => Option.some_ne_none _⟩
    · obtain hd | rfl := hmem d hd
      · exact (hmark d hd).1 hp
      · cases hp
    · obtain hd | rfl := hmem d hd
      · exact (hmark d hd).2 hc
      · cases hc
  | @released b now done hb =>
    have hmark := markCanceled_kept h hx.1
    refine ⟨fun d hd => (hmark d hd).1, fun d hd => (hmark d hd).2, fun b' hb' hseat => ?_, fun _ => h.opened hx.2.deposits⟩
    obtain rfl := Option.some.inj (show some _ = some b' from hb')
    cases hseat
  | @kept now done =>
    have hmark := markCanceled_kept h hx.1
    exact ⟨fun d hd => (hmark d hd).1, fun d hd => (hmark d hd).2, h.seated, fun _ => h.opened hx.2.deposits⟩
  | @settled ref rebuilt seen b pending hb hl hr =>
    obtain ⟨hint, hbook, hseat, -⟩ := settleDeposit_other s ref rebuilt b seen pending
    have hopen := settleDeposit_openedAt s ref rebuilt b seen pending
    refine ⟨fun d' hd' hp => ?_, fun d' hd' hc => ?_, fun b' hb' hseat' => ?_, fun hne => ?_⟩
    · obtain ⟨d, hd, hdr, -, hdp, -, -⟩ := mem_settleDeposit hd'
      refine hi _ _ (by decide) ?_
      rw [hdr]
      obtain ⟨hre, -⟩ | hold := mem_settlePayment hd
      · exact hre ▸ hx
      · exact h.paid d hold (hdp ▸ hp)
    · obtain ⟨d, hd, hdr, hds, -, -, -⟩ := mem_settleDeposit hd'
      refine hi _ _ (by decide) ?_
      rw [hdr]
      rw [hds] at hc
      obtain ⟨-, hsu⟩ | hold := mem_settlePayment hd
      · rw [hsu] at hc
        cases hc
      · exact h.canceled d hold hc
    · obtain rfl := Option.some.inj (hbook.symm.trans hb')
      show ((s.settlePayment ref rebuilt).settleDeposit b seen pending).seatedAt ≠ none
      rw [hseat]
      exact h.seated b hb hseat'
    · show ((s.settlePayment ref rebuilt).settleDeposit b seen pending).openedAt ≠ none
      rw [hopen]
      cases rebuilt with
      | true => exact Option.some_ne_none _
      | false =>
        refine h.opened fun hnil => hne ?_
        exact settledDeposits_nil hnil
  | @failed ref canceled hl =>
    refine ⟨fun d' hd' hp => ?_, fun d' hd' hc => ?_, h.seated, fun hne => h.opened fun hnil => hne ?_⟩
    · obtain ⟨d, hd, rfl⟩ := List.mem_map.1 hd'
      split at hp <;> split <;> exact h.paid d hd hp
    · obtain ⟨d, hd, rfl⟩ := List.mem_map.1 hd'
      by_cases hr : d.ref = ref
      · rw [if_pos hr] at hc ⊢
        cases canceled with
        | true => exact hr ▸ hx rfl
        | false => cases hc
      · rw [if_neg hr] at hc ⊢
        exact h.canceled d hd hc
    · show s.deposits.map _ = []
      rw [hnil]
      rfl
  | @close b status depositStatus hb ho hst hl =>
    refine ⟨h.paid, h.canceled, fun b' hb' hseat => ?_, h.opened⟩
    obtain rfl := Option.some.inj (show some _ = some b' from hb')
    exact absurd (hst.symm.trans (BookingStatus.open_of_seated hseat)) (by decide)
  | _ => exact h.of_eq hi rfl rfl rfl rfl

/-- What the job has locked is due, and what of it was paid it tries at Stripe. -/
theorem DepositStep.knows_own (hs : DepositStep p s x s' x') (hx : DepositKnows p s x) (h : DepositsKept s) :
    DepositKnows p s' x' := by
  have hi := (hs.leaves hx).intents
  cases hs with
  | supersede hl => exact ⟨fun _ hr => (List.not_mem_nil hr).elim, trivial⟩
  | charge => exact ⟨fun _ hr => (List.not_mem_nil hr).elim, trivial⟩
  | @cancel c r todo done ok hir =>
    obtain ⟨hdone, hc⟩ := hx
    refine ⟨fun r' hr' => ?_, ?_⟩
    · obtain hr' | hr' := List.mem_append.1 hr'
      · exact hi _ _ (by decide) (hdone r' hr')
      · rw [List.mem_singleton.1 hr']
        exact Function.update_self ..
    · cases c with
      | «open» time ref => trivial
      | reap now =>
        refine ⟨hc.lock, hc.booking, hc.deposits, fun hok d hd hp => ?_⟩
        obtain hr | hr := List.mem_cons.1 (hc.paid hok d hd hp)
        · exact absurd (hr ▸ h.paid d hd hp) hir
        · exact hr
  | @refuse c r todo done ok hir =>
    obtain ⟨hdone, hc⟩ := hx
    refine ⟨hdone, ?_⟩
    cases c with
    | «open» time ref => trivial
    | reap now => exact ⟨hc.lock, hc.booking, hc.deposits, fun hok => Bool.noConfusion hok⟩
  | @lockDue b now hb hd hl hf =>
    obtain ⟨-, hseat, htime, -, hne, hsu⟩ := OnlineBooking.due_iff.1 hd
    refine ⟨fun _ hr => (List.not_mem_nil hr).elim, rfl, ⟨b, hb, hseat, htime⟩, hne, fun _ d hmem hp => ?_⟩
    refine mem_openRefs hmem ?_
    cases hst : d.status with
    | pending => exact .inl rfl
    | failed => exact .inr rfl
    | succeeded => exact absurd hst (hsu d hmem)
    | canceled =>
      have hcan := h.canceled d hmem hst
      rw [h.paid d hmem hp] at hcan
      cases hcan
  | settle hd hs hir => exact hir
  | lockPayment hl => exact hx
  | readBooking hb => exact hx
  | rebuild hr hir hb => exact hir
  | fail hd hs hir => exact hir
  | _ => trivial

/-! ## Releases -/

end

/-- A released booking: the client had been able to pay for half an hour, nothing had settled, and
what settles later goes back. -/
structure ReleasedUnpaid (s : DepositStore π) (r : DepositRelease) : Prop where
  window : ∃ t, s.payableAt = some t ∧ t + unpaidTtl < r.now
  settled : r.settled = []
  booking : ∃ b, s.booking = some b ∧ b.status = .canceled
  refunded : ∀ d ∈ s.deposits, d.paid = true → d.refunded = true

theorem payableAt_some {t t' : Int} (hs : s.seatedAt = some t) (ho : s.openedAt = some t') :
    s.payableAt = some (max t t') := by
  unfold payableAt
  rw [hs, ho]
  rfl

theorem payableAt_inv {t : Int} (h : s.payableAt = some t) :
    ∃ a b, s.seatedAt = some a ∧ s.openedAt = some b ∧ t = max a b := by
  unfold payableAt at h
  obtain ⟨a, ha, h⟩ := Option.bind_eq_some_iff.1 h
  obtain ⟨b, hb, h⟩ := Option.map_eq_some_iff.1 h
  exact ⟨a, b, ha, hb, h.symm⟩

/-- The booking stays canceled, the times are kept, and no deposit comes or is paid that is not
refunded. -/
theorem ReleasedUnpaid.of_same {r : DepositRelease} (h : ReleasedUnpaid s r) (hp : s'.seatedAt = s.seatedAt)
    (ho : s'.openedAt = s.openedAt) (hb : s'.booking = s.booking)
    (hd : ∀ d' ∈ s'.deposits, d'.paid = true → d'.refunded = true) : ReleasedUnpaid s' r where
  window := by
    obtain ⟨t, ht, hlt⟩ := h.window
    refine ⟨t, ?_, hlt⟩
    rw [← ht, payableAt, payableAt, hp, ho]
  settled := h.settled
  booking := by rw [hb]; exact h.booking
  refunded := hd

theorem refunded_markCanceled {done : List Id} (h : ∀ d ∈ s.deposits, d.paid = true → d.refunded = true) :
    ∀ d ∈ (s.markCanceled done).deposits, d.paid = true → d.refunded = true := by
  intro d hd hp
  obtain ⟨d₀, hd₀, rfl⟩ := List.mem_map.1 hd
  split at hp <;> split <;> exact h d₀ hd₀ hp

section
variable [DecidableEq π] {x x' : DepositPlace}

/-- A booking that was released stays released unpaid. -/
theorem DepositStep.releasedUnpaid (hs : DepositStep p s x s' x') {r : DepositRelease} (h : ReleasedUnpaid s r)
    (hx : DepositKnows p s x)
    (hc : ∀ ref rebuilt seen b, x = .settling ref rebuilt seen → s'.deposits ≠ s.deposits → s.booking = some b →
      b.status = .canceled → seen.status = .canceled ∧ s.refundPending = false) : ReleasedUnpaid s' r := by
  obtain ⟨bc, hbc, hcan⟩ := h.booking
  have hbooked : ∀ {b}, s.booking = some b → b.status = .canceled := fun hb =>
    Option.some.inj (hb.symm.trans hbc) ▸ hcan
  cases hs with
  | booked hb =>
    rw [hbc] at hb
    cases hb
  | seat hb hw hl =>
    have := hbooked hb
    rw [hw] at this
    cases this
  | @opened time ref done hr =>
    obtain ⟨t, ht, -⟩ := h.window
    obtain ⟨a, b, -, hopen, -⟩ := payableAt_inv ht
    refine h.of_same rfl ?_ rfl fun d hd hp => ?_
    · show some (s.openedAt.getD time) = s.openedAt
      rw [hopen]
      rfl
    · obtain hd | hd := List.mem_append.1 hd
      · exact refunded_markCanceled h.refunded d hd hp
      · obtain rfl := List.mem_singleton.1 hd
        cases hp
  | released hb =>
    obtain ⟨b, hb', hseat, -⟩ := hx.2.booking
    rw [hbooked hb'] at hseat
    cases hseat
  | kept => exact h.of_same rfl rfl rfl (refunded_markCanceled h.refunded)
  | @settled ref rebuilt seen b pending hb hl hr =>
    obtain ⟨hint, hbook, hseat, -⟩ := settleDeposit_other s ref rebuilt b seen pending
    have hopen := settleDeposit_openedAt s ref rebuilt b seen pending
    obtain ⟨t, ht, hlt⟩ := h.window
    obtain ⟨a, c, hs, ho, rfl⟩ := payableAt_inv ht
    have ho' : ((s.settlePayment ref rebuilt).settleDeposit b seen pending).openedAt = some c := by
      rw [hopen, ho]
      split <;> rfl
    refine ⟨⟨max a c, payableAt_some (hseat.trans hs) ho', hlt⟩, h.settled, ⟨_, hbook, show b.status = .canceled from hbooked hb⟩, fun d' hd' hp => ?_⟩
    by_cases hsame : ((s.settlePayment ref rebuilt).settleDeposit b seen pending).deposits = s.deposits
    · exact h.refunded d' (hsame ▸ hd') hp
    · obtain ⟨hseen, hpend⟩ := hc ref rebuilt seen b rfl hsame hb (hbooked hb)
      have hback : seen.settled.2 = true := by
        unfold OnlineBooking.settled
        rw [if_pos (.inl hseen)]
      obtain ⟨d, hd, -, -, hdp, hkeep, hnew⟩ := mem_settleDeposit hd'
      obtain ⟨-, hsu⟩ | hold := mem_settlePayment hd
      · exact hnew hback (by unfold settlePayment; split <;> exact hpend) hsu
      · exact hkeep (h.refunded d hold (hdp ▸ hp))
  | @failed ref canceled hl =>
    refine h.of_same rfl rfl rfl fun d' hd' hp => ?_
    obtain ⟨d, hd, rfl⟩ := List.mem_map.1 hd'
    split at hp <;> split <;> exact h.refunded d hd hp
  | close hb ho hst hl =>
    rw [hbooked hb] at ho
    cases ho
  | _ => exact h.of_same rfl rfl rfl h.refunded

/-- The job releases a booking that is due and whose payments Stripe has canceled. -/
theorem DepositStep.released_new (hs : DepositStep p s x s' x') (hx : DepositKnows p s x) (h : DepositsKept s)
    (hne : s'.released ≠ s.released)
    (hw : ∀ b t, s.booking = some b → s.payableAt = some t → t ≤ b.createdAt) :
    ∃ r, s'.released = some r ∧ ReleasedUnpaid s' r := by
  cases hs with
  | @released b now done hb =>
    have hunpaid : ∀ d ∈ s.deposits, d.paid ≠ true := fun d hd hp => List.not_mem_nil (hx.2.paid rfl d hd hp)
    obtain ⟨b', hb', hseat, htime⟩ := hx.2.booking
    obtain rfl := Option.some.inj (hb.symm.trans hb')
    obtain ⟨t, ht⟩ := Option.ne_none_iff_exists'.1 (h.seated b hb hseat)
    obtain ⟨t', ht'⟩ := Option.ne_none_iff_exists'.1 (h.opened hx.2.deposits)
    have hpay := payableAt_some ht ht'
    have hle := hw b _ hb hpay
    refine ⟨_, rfl, ⟨max t t', payableAt_some ht ht', ?_⟩, ?_, ⟨_, rfl, rfl⟩, fun d hd hp => ?_⟩
    · show max t t' + unpaidTtl < now
      omega
    · show (s.deposits.filter (·.paid)).map (·.ref) = []
      rw [List.map_eq_nil_iff, List.filter_eq_nil_iff]
      exact hunpaid
    · obtain ⟨d₀, hd₀, rfl⟩ := List.mem_map.1 hd
      exact absurd ((markCanceled_same done d₀).2 ▸ hp) (hunpaid d₀ hd₀)
  | @settled ref rebuilt seen b pending hb hl hr => exact absurd (settleDeposit_other s ref rebuilt b seen pending).2.2.2 hne
  | _ => exact absurd rfl hne

end

/-! ## Runs -/

/-- What is known of the payments, of every transaction, and of a release. -/
structure DepositsKnown (w : World π (DepositStore π) DepositPlace) : Prop where
  kept : DepositsKept w.store
  places : ∀ p, DepositKnows p w.store (w.place p)
  released : ∀ r, w.store.released = some r → ReleasedUnpaid w.store r

theorem depositsKnown_step [DecidableEq π] {w w' : World π (DepositStore π) DepositPlace} (h : DepositsKnown w)
    (hs : WindowStep w p w') : DepositsKnown w' := by
  obtain ⟨hs, hwindow, hsettle⟩ := hs
  cases hs with
  | @step t _ hs =>
    refine ⟨hs.depositsKept (h.places p) h.kept, fun q => ?_, fun r hr => ?_⟩
    · by_cases hq : q = p
      · subst hq
        show DepositKnows q _ (Function.update w.place q _ q)
        rw [Function.update_self]
        exact hs.knows_own (h.places q) h.kept
      · show DepositKnows q _ (Function.update w.place p _ q)
        rw [Function.update_of_ne hq]
        exact (hs.leaves (h.places p)).knows hq (h.places q)
    · by_cases hsame : t.released = w.store.released
      · exact hs.releasedUnpaid (h.released r (hsame ▸ hr)) (h.places p) hsettle
      · obtain ⟨r', hr', hun⟩ := hs.released_new (h.places p) h.kept hsame (hwindow hsame)
        exact Option.some.inj (hr'.symm.trans hr) ▸ hun

/-- Before the booking is made. -/
structure NotBooked (w : World π (DepositStore π) DepositPlace) : Prop where
  idle : ∀ p, w.place p = .idle
  booking : w.store.booking = none
  deposits : w.store.deposits = []
  released : w.store.released = none

theorem deposit_window_kept [DecidableEq π] {w w' : World π (DepositStore π) DepositPlace} {ps : List π} (h0 : NotBooked w)
    (hr : Run WindowStep w ps w') : ∀ r, w'.store.released = some r → ReleasedUnpaid w'.store r := by
  have hstart : DepositsKnown w := by
    refine ⟨⟨?_, ?_, ?_, ?_⟩, fun p => ?_, fun r hr => ?_⟩
    · rw [h0.deposits]
      exact fun _ h => (List.not_mem_nil h).elim
    · rw [h0.deposits]
      exact fun _ h => (List.not_mem_nil h).elim
    · rw [h0.booking]
      exact fun _ h => by cases h
    · rw [h0.deposits]
      exact fun h => absurd rfl h
    · rw [h0.idle]
      trivial
    · rw [h0.released] at hr
      cases hr
  exact (hr.invariant (fun _ _ _ hi hs => depositsKnown_step hi hs) hstart).released

/-! ## A seat that opens late, and a payment that settles meanwhile -/

def noVisit {π : Type} : DepositStore π where
  booking := none
  deposits := []
  refundPending := false
  bookingLock := none
  depositLocks := fun _ => none
  intents := fun _ => none
  clock := 0
  seatedAt := none
  openedAt := none
  released := none

def noVisitWorld {π : Type} : World π (DepositStore π) DepositPlace := ⟨noVisit, fun _ => .idle⟩

theorem noVisit_start {π : Type} : NotBooked (π := π) noVisitWorld := ⟨fun _ => rfl, rfl, rfl, rfl⟩

/-- A step that neither releases nor settles. -/
theorem window_quiet [DecidableEq π] {w w' : World π (DepositStore π) DepositPlace} (h : Interleaved DepositStep w p w')
    (hr : w'.store.released = w.store.released) (hd : ∀ ref rebuilt seen, w.place p ≠ .settling ref rebuilt seen) :
    WindowStep w p w' :=
  ⟨h, fun hne => absurd hr hne, fun ref rebuilt seen _ hp => absurd hp (hd ref rebuilt seen)⟩

/-- Booked with a deposit payment that stays unpaid, and released half an hour and a second later. -/
theorem unpaid_released : ∃ w' : World Unit (DepositStore Unit) DepositPlace,
    w'.store.released = some ⟨1801, []⟩ ∧ ∃ t, w'.store.payableAt = some t ∧ t + unpaidTtl < 1801 := by
  have hr : Run WindowStep noVisitWorld [(), (), (), (), (), (), ()] _ :=
    .cons (window_quiet (.from rfl (@DepositStep.book Unit _ () noVisit .confirmed "pi" rfl rfl rfl)) (by rfl)
      fun _ _ _ h => DepositPlace.noConfusion h) <|
    .cons (window_quiet (.from rfl (@DepositStep.booked Unit _ () _ 0 .confirmed (some "pi") 9000 rfl)) (by rfl)
      fun _ _ _ h => DepositPlace.noConfusion h) <|
    .cons (window_quiet (.from rfl (@DepositStep.tick Unit _ () _ 1801 (by decide))) (by rfl)
      fun _ _ _ h => DepositPlace.noConfusion h) <|
    .cons (window_quiet (.from rfl (@DepositStep.scan Unit _ () _)) (by rfl)
      fun _ _ _ h => DepositPlace.noConfusion h) <|
    .cons (window_quiet (.from rfl (@DepositStep.lockDue Unit _ () _ _ 1801 rfl (by decide) rfl (by decide))) (by rfl)
      fun _ _ _ h => DepositPlace.noConfusion h) <|
    .cons (window_quiet (.from (x := .canceling (.reap 1801) ["pi"] [] true) rfl
      (@DepositStep.cancel Unit _ () _ (.reap 1801) "pi" [] [] true (by decide))) (by rfl)
      fun _ _ _ h => DepositPlace.noConfusion h) <|
    .cons ⟨.from rfl (@DepositStep.released Unit _ () _ _ 1801 ["pi"] rfl), fun _ b t hb ht => by
        obtain rfl := Option.some.inj (show some _ = some b from hb)
        obtain rfl := Option.some.inj (show some (0 : Int) = some t from ht)
        exact le_rfl, fun _ _ _ _ h => DepositPlace.noConfusion h⟩ .nil
  exact ⟨_, rfl, (deposit_window_kept noVisit_start hr _ rfl).window⟩

/-- A client waits two hours for a seat, opens the deposit's payment, and is released a minute later. -/
theorem late_seat_released : ∃ (w' : World Unit (DepositStore Unit) DepositPlace) (ps : List Unit),
    Run (Interleaved DepositStep) noVisitWorld ps w' ∧ w'.store.released = some ⟨7260, []⟩ ∧
    w'.store.payableAt = some 7200 := by
  have hr : Run (Interleaved DepositStep) noVisitWorld [(), (), (), (), (), (), (), (), (), (), (), (), ()] _ :=
    .cons (.from rfl (@DepositStep.bookPlain Unit _ () noVisit .waitlisted rfl rfl)) <|
    .cons (.from rfl (@DepositStep.booked Unit _ () _ 0 .waitlisted none 9000 rfl)) <|
    .cons (.from rfl (@DepositStep.tick Unit _ () _ 7200 (by decide))) <|
    .cons (.from rfl (@DepositStep.seat Unit _ () _ _ rfl rfl rfl)) <|
    .cons (.from rfl (@DepositStep.payDeposit Unit _ () _ _ rfl (by decide) rfl)) <|
    .cons (.from rfl (@DepositStep.create Unit _ () _ 7200 "pi" rfl)) <|
    .cons (.from rfl (@DepositStep.supersede Unit _ () _ 7200 "pi" (by decide))) <|
    .cons (.from (x := .canceling (.open 7200 "pi") [] [] true) rfl
      (@DepositStep.opened Unit _ () _ 7200 "pi" [] (by decide))) <|
    .cons (.from rfl (@DepositStep.tick Unit _ () _ 7260 (by decide))) <|
    .cons (.from rfl (@DepositStep.scan Unit _ () _)) <|
    .cons (.from rfl (@DepositStep.lockDue Unit _ () _ _ 7260 rfl (by decide) rfl (by decide))) <|
    .cons (.from (x := .canceling (.reap 7260) ["pi"] [] true) rfl
      (@DepositStep.cancel Unit _ () _ (.reap 7260) "pi" [] [] true (by decide))) <|
    .cons (.from rfl (@DepositStep.released Unit _ () _ _ 7260 ["pi"] rfl)) .nil
  exact ⟨_, _, hr, rfl, rfl⟩

/-- A card that staff charged went through, but its transaction did not commit; its event reads the
booking, the job releases it, and the deposit is collected on the canceled booking. -/
theorem settled_after_release : ∃ (w' : World Bool (DepositStore Bool) DepositPlace) (ps : List Bool),
    Run (Interleaved DepositStep) noVisitWorld ps w' ∧ w'.store.released = some ⟨1801, []⟩ ∧
    w'.store.booking = some ⟨.canceled, .collected, 0, 9000⟩ ∧
    (⟨"card", .succeeded, true, false⟩ : DepositPayment) ∈ w'.store.deposits := by
  have hr : Run (Interleaved DepositStep) noVisitWorld
      [false, false, true, true, true, true, true, true, false, false, false, false, true] _ :=
    .cons (.from rfl (@DepositStep.book Bool _ false noVisit .confirmed "pi" rfl rfl rfl)) <|
    .cons (.from rfl (@DepositStep.booked Bool _ false _ 0 .confirmed (some "pi") 9000 rfl)) <|
    .cons (.from rfl (@DepositStep.collectDeposit Bool _ true _ _ rfl)) <|
    .cons (.from rfl (@DepositStep.create Bool _ true _ 0 "card" (by decide))) <|
    .cons (.from rfl (@DepositStep.rollback Bool _ true _ _)) <|
    .cons (.from rfl (@DepositStep.pay Bool _ true _ "card" (by decide))) <|
    .cons (.from rfl (@DepositStep.tick Bool _ true _ 1801 (by decide))) <|
    .cons (.from rfl (@DepositStep.rebuild Bool _ true _ "card" _ (by decide) (by decide) rfl)) <|
    .cons (.from rfl (@DepositStep.scan Bool _ false _)) <|
    .cons (.from rfl (@DepositStep.lockDue Bool _ false _ _ 1801 rfl (by decide) rfl (by decide))) <|
    .cons (.from (x := .canceling (.reap 1801) ["pi"] [] true) rfl
      (@DepositStep.cancel Bool _ false _ (.reap 1801) "pi" [] [] true (by decide))) <|
    .cons (.from rfl (@DepositStep.released Bool _ false _ _ 1801 ["pi"] rfl)) <|
    .cons (.from rfl (@DepositStep.settled Bool _ true _ "card" true _ _ false rfl rfl (by decide))) .nil
  exact ⟨_, _, hr, rfl, rfl, List.mem_cons_of_mem _ List.mem_cons_self⟩

/-- Neither the half hour nor the refund is certain. -/
theorem deposit_window_lost :
    (∃ (w' : World Unit (DepositStore Unit) DepositPlace) (ps : List Unit) (r : DepositRelease) (t : Int),
      Run (Interleaved DepositStep) noVisitWorld ps w' ∧ w'.store.released = some r ∧
      w'.store.payableAt = some t ∧ r.now < t + unpaidTtl) ∧
    ∃ (w' : World Bool (DepositStore Bool) DepositPlace) (ps : List Bool) (r : DepositRelease) (d : DepositPayment),
      Run (Interleaved DepositStep) noVisitWorld ps w' ∧ w'.store.released = some r ∧
      d ∈ w'.store.deposits ∧ d.paid = true ∧ d.refunded = false := by
  constructor
  · obtain ⟨w', ps, hr, hrel, hpay⟩ := late_seat_released
    exact ⟨w', ps, _, _, hr, hrel, hpay, by decide⟩
  · obtain ⟨w', ps, hr, hrel, -, hd⟩ := settled_after_release
    exact ⟨w', ps, _, _, hr, hrel, hd, rfl, rfl⟩

end ClientBridge
