import ClientBridge.Business.Removals

/-!
# A removed member has no work ahead

Under the member's lock a removal sees every visit ahead of them, and no other transaction gives
them one until it commits.  After that nothing gives them a visit either, as long as no removal of
a member commits between the read that finds them active and the write that gives them a visit
(`removed_hold_no_work`).
-/

namespace ClientBridge

open Runs WorkStore

variable {π : Type} {p q : π} {s s' : WorkStore π}

/-! ## Visits ahead before and after a step -/

theorem WorkCommand.mem_lockOrder {c : WorkCommand} {m : Id} : m ∈ c.lockOrder ↔ match c with
    | .create member => m = member
    | .patch _ _ held staff _ => m = held ∨ m = staff
    | .remove member _ candidates => m = member ∨ m ∈ candidates := by
  cases c <;> simp [WorkCommand.lockOrder]

theorem visitOf_iff {m : Id} {ahead : Int → Bool} {b : WorkBooking} : s.visitOf m ahead b = true ↔
    b.status.open = true ∧ ∃ x, s.slots b.slotId = some x ∧ x.staffId = m ∧ x.status = .scheduled ∧
      ahead x.startsAt = true := by
  unfold WorkStore.visitOf
  cases hx : s.slots b.slotId with
  | none => simp
  | some x => simp [and_assoc]

theorem sessionOf_iff {schedules : List Id} {slot : Id} : s.sessionOf schedules slot = true ↔
    ∃ x r, s.slots slot = some x ∧ x.status ≠ .canceled ∧ s.clock < x.startsAt ∧ x.recurrenceId = some r ∧
      r ∈ schedules := by
  unfold WorkStore.sessionOf
  cases hx : s.slots slot with
  | none => simp
  | some x =>
    constructor
    · intro h
      simp only [Bool.and_eq_true, decide_eq_true_eq, Option.any_eq_true] at h
      obtain ⟨⟨hlive, hahead⟩, r, hr, hmem⟩ := h
      exact ⟨x, r, rfl, hlive, hahead, hr, hmem⟩
    · rintro ⟨y, r, hy, hlive, hahead, hr, hmem⟩
      obtain rfl := Option.some.inj hy
      simp [hlive, hahead, hr, hmem]

theorem mem_liveVisits {visits : List Id} {b : WorkBooking} :
    b ∈ s.liveVisits visits ↔ b ∈ s.bookings ∧ b.id ∈ visits ∧ b.status.open = true := by
  simp [WorkStore.liveVisits]

/-- The visits a step leaves ahead of members were ahead of them before, or it holds their locks. -/
def AheadFrom (s s' : WorkStore π) (locked : Id → Prop) : Prop :=
  ∀ m b x, VisitAhead s' m b x → locked m ∨
    ∃ b₀ x₀, VisitAhead s m b₀ x₀ ∧ b₀.id = b.id ∧ b₀.slotId = b.slotId ∧ x₀.recurrenceId = x.recurrenceId

/-- No slot is lost, or changes its series. -/
def SlotsStay (s s' : WorkStore π) : Prop :=
  ∀ slot x, s.slots slot = some x → ∃ x', s'.slots slot = some x' ∧ x'.recurrenceId = x.recurrenceId

theorem VisitAhead.of_later {m : Id} {b : WorkBooking} {x : WorkSlot} (h : VisitAhead s' m b x)
    (hs : s'.slots = s.slots) (hb : s'.bookings = s.bookings) (hc : s.clock ≤ s'.clock) : VisitAhead s m b x where
  booking := by rw [← hb]; exact h.booking
  «open» := h.open
  slot := by rw [← hs]; exact h.slot
  staff := h.staff
  scheduled := h.scheduled
  ahead := lt_of_le_of_lt hc h.ahead

theorem HasAhead.of_later {m booking : Id} (h : HasAhead s' m booking) (hs : s'.slots = s.slots)
    (hb : s'.bookings = s.bookings) (hc : s.clock ≤ s'.clock) : HasAhead s m booking := by
  obtain ⟨b, x, hx, hid⟩ := h
  exact ⟨b, x, hx.of_later hs hb hc, hid⟩

theorem AheadFrom.of_later {locked : Id → Prop} (hs : s'.slots = s.slots) (hb : s'.bookings = s.bookings)
    (hc : s.clock ≤ s'.clock) : AheadFrom s s' locked :=
  fun _ b x h => .inr ⟨b, x, h.of_later hs hb hc, rfl, rfl, rfl⟩

theorem SlotsStay.of_eq (h : s'.slots = s.slots) : SlotsStay s s' := fun slot x hx => ⟨x, by rw [h, hx], rfl⟩

theorem SlotsStay.map {f : Id → WorkSlot → WorkSlot} (hf : ∀ slot x, (f slot x).recurrenceId = x.recurrenceId)
    (h : s'.slots = fun slot => (s.slots slot).map (f slot)) : SlotsStay s s' := by
  intro slot x hx
  refine ⟨f slot x, ?_, hf slot x⟩
  rw [h]
  show (s.slots slot).map (f slot) = _
  rw [hx]
  rfl

theorem AheadFrom.trans {s'' : WorkStore π} {locked : Id → Prop} (h : AheadFrom s s' locked)
    (h' : AheadFrom s' s'' locked) : AheadFrom s s'' locked := by
  intro m b x hx
  obtain hl | ⟨b₁, x₁, h₁, hid, hslot, hr⟩ := h' m b x hx
  · exact .inl hl
  obtain hl | ⟨b₀, x₀, h₀, hid', hslot', hr'⟩ := h m b₁ x₁ h₁
  · exact .inl hl
  · exact .inr ⟨b₀, x₀, h₀, hid'.trans hid, hslot'.trans hslot, hr'.trans hr⟩

theorem SlotsStay.trans {s'' : WorkStore π} (h : SlotsStay s s') (h' : SlotsStay s' s'') : SlotsStay s s'' := by
  intro slot x hx
  obtain ⟨x', hx', hr'⟩ := h slot x hx
  obtain ⟨x'', hx'', hr''⟩ := h' slot x' hx'
  exact ⟨x'', hx'', hr''.trans hr'⟩

/-! ## What the writes do -/

/-- Bookings are added, and nothing else is touched but their slots. -/
structure Books (member : Id) (s s' : WorkStore π) : Prop where
  ahead : AheadFrom s s' (· = member)
  slots : SlotsStay s s'
  members : s'.members = s.members
  locks : s'.locks = s.locks
  removals : s'.removals = s.removals

theorem WorkStore.BookOne.books {member : Id} {b : WorkBooking} (h : BookOne member s b s') : Books member s s' := by
  cases h with
  | @own startsAt capacity recurrence hb ho hs =>
    refine ⟨fun m b' x hx => ?_, fun slot x hx => ?_, rfl, rfl, rfl⟩
    · have hslot : Function.update s.slots b.slotId (some ⟨member, startsAt, .scheduled, capacity, recurrence⟩) b'.slotId =
          some x := hx.slot
      by_cases hsame : b'.slotId = b.slotId
      · rw [hsame, Function.update_self] at hslot
        obtain rfl := Option.some.inj hslot
        exact .inl hx.staff.symm
      · rw [Function.update_of_ne hsame] at hslot
        obtain hb' | hb' := List.mem_append.1 (show b' ∈ s.bookings ++ [b] from hx.booking)
        · exact .inr ⟨b', x, ⟨hb', hx.open, hslot, hx.staff, hx.scheduled, hx.ahead⟩, rfl, rfl, rfl⟩
        · exact absurd (congrArg _ (List.mem_singleton.1 hb')) hsame
    · refine ⟨x, ?_, rfl⟩
      have hne : slot ≠ b.slotId := fun he => by
        rw [he, hs] at hx
        cases hx
      show Function.update s.slots b.slotId _ slot = some x
      rw [Function.update_of_ne hne, hx]
  | @session x hb ho hs hm hx hc =>
    refine ⟨fun m b' x' hx' => ?_, .of_eq rfl, rfl, rfl, rfl⟩
    obtain hb' | hb' := List.mem_append.1 (show b' ∈ s.bookings ++ [b] from hx'.booking)
    · exact .inr ⟨b', x', ⟨hb', hx'.open, hx'.slot, hx'.staff, hx'.scheduled, hx'.ahead⟩, rfl, rfl, rfl⟩
    · obtain rfl := List.mem_singleton.1 hb'
      obtain rfl : x = x' := Option.some.inj (hs.symm.trans hx'.slot)
      exact .inl (hx'.staff.symm.trans hm)

theorem books_run {member : Id} {bs : List WorkBooking} (h : Run (BookOne member) s bs s') : Books member s s' := by
  refine h.invariant (I := Books member s) (fun t b u ht hu => ?_) ?_
  · have hone := hu.books
    exact ⟨ht.ahead.trans hone.ahead, ht.slots.trans hone.slots, hone.members.trans ht.members,
      hone.locks.trans ht.locks, hone.removals.trans ht.removals⟩
  · exact ⟨.of_later rfl rfl le_rfl, .of_eq rfl, rfl, rfl, rfl⟩

theorem patched_aheadFrom {slot : Id} {x : WorkSlot} {staff : Id} {startsAt : Int} :
    AheadFrom s { s with slots := Function.update s.slots slot (some { x with staffId := staff, startsAt := startsAt }) }
      (· = staff) := by
  intro m b x' hx'
  have hslot : Function.update s.slots slot (some { x with staffId := staff, startsAt := startsAt }) b.slotId = some x' :=
    hx'.slot
  by_cases hsame : b.slotId = slot
  · rw [hsame, Function.update_self] at hslot
    obtain rfl := Option.some.inj hslot
    exact .inl hx'.staff.symm
  · rw [Function.update_of_ne hsame] at hslot
    exact .inr ⟨b, x', ⟨hx'.booking, hx'.open, hslot, hx'.staff, hx'.scheduled, hx'.ahead⟩, rfl, rfl, rfl⟩

theorem patched_slotsStay {slot : Id} {x : WorkSlot} {staff : Id} {startsAt : Int} (hx : s.slots slot = some x) :
    SlotsStay s { s with slots := Function.update s.slots slot (some { x with staffId := staff, startsAt := startsAt }) } := by
  intro other x' hx'
  by_cases hsame : other = slot
  · subst hsame
    obtain rfl : x = x' := Option.some.inj (hx.symm.trans hx')
    exact ⟨{ x with staffId := staff, startsAt := startsAt }, Function.update_self .., rfl⟩
  · exact ⟨x', by rw [← hx']; exact Function.update_of_ne hsame .., rfl⟩

/-- A booking that is closed, by itself or with others. -/
theorem closed_aheadFrom {locked : Id → Prop} {f : WorkBooking → WorkBooking}
    (hf : ∀ b, (f b).status.open = true → f b = b) : AheadFrom s { s with bookings := s.bookings.map f } locked := by
  intro m b x hx
  obtain ⟨b₀, hb₀, he⟩ := List.mem_map.1 (show b ∈ s.bookings.map f from hx.booking)
  have hsame := hf b₀ (by rw [he]; exact hx.open)
  rw [hsame] at he
  subst he
  exact .inr ⟨b₀, x, ⟨hb₀, hx.open, hx.slot, hx.staff, hx.scheduled, hx.ahead⟩, rfl, rfl, rfl⟩

/-- What a canceling removal leaves ahead was ahead before, and is none of the visits it settles. -/
theorem canceled_ahead {member : Id} {visits : List Id} {sessions : Id → Bool} {m : Id} {b : WorkBooking} {x : WorkSlot}
    (h : VisitAhead (s.cancelVisits member visits sessions) m b x) : VisitAhead s m b x ∧ b ∉ s.liveVisits visits := by
  obtain ⟨b₀, hb₀, he⟩ := List.mem_map.1 h.booking
  have hnot : b₀ ∉ s.liveVisits visits := by
    intro hl
    have ho := h.open
    rw [← he, if_pos hl] at ho
    cases ho
  rw [if_neg hnot] at he
  subst he
  obtain ⟨x₀, hx₀, hx⟩ := Option.map_eq_some_iff.1 h.slot
  have hkept : x₀ = x := by
    split at hx
    · have hs := h.scheduled
      rw [← hx] at hs
      cases hs
    · exact hx
  subst hkept
  exact ⟨⟨hb₀, h.open, hx₀, h.staff, h.scheduled, h.ahead⟩, hnot⟩

/-- What a reassigning removal leaves ahead of a member: a slot that one of the candidates took, or a
visit that was theirs, on no session and on no slot that was taken. -/
theorem reassigned_ahead {member : Id} {candidates visits schedules : List Id} {sessions : Id → Bool}
    {free : Id → Id → Bool} {schedule : Id → Id} {follow : Id → Option Id}
    (hsch : ∀ r ∈ schedules, schedule r ∈ candidates)
    (hses : ∀ slot, sessions slot = true → ∃ x r, s.slots slot = some x ∧ x.recurrenceId = some r ∧ r ∈ schedules)
    {m : Id} {b : WorkBooking} {x : WorkSlot}
    (h : VisitAhead (s.reassignVisits member candidates visits schedules sessions free schedule follow) m b x) :
    m ∈ candidates ∨ VisitAhead s m b x ∧ sessions b.slotId = false ∧
      (s.ownSlot visits schedules b.slotId = true → taker candidates free b.slotId = none) := by
  obtain ⟨x₀, hx₀, hx⟩ := Option.map_eq_some_iff.1 h.slot
  by_cases hs : sessions b.slotId = true
  · obtain ⟨x₁, r, hx₁, hr, hmem⟩ := hses _ hs
    obtain rfl : x₀ = x₁ := Option.some.inj (hx₀.symm.trans hx₁)
    rw [if_pos hs, hr] at hx
    have hm : schedule r = m := by
      rw [← h.staff, ← hx]
      rfl
    exact .inl (hm ▸ hsch r hmem)
  · rw [if_neg hs] at hx
    by_cases hown : s.ownSlot visits schedules b.slotId = true
    · rw [if_pos hown] at hx
      cases ht : taker candidates free b.slotId with
      | some c =>
        rw [ht] at hx
        have hm : c = m := by
          rw [← h.staff, ← hx]
          rfl
        exact .inl (hm ▸ List.mem_of_find?_eq_some ht)
      | none =>
        rw [ht] at hx
        obtain rfl : x₀ = x := hx
        exact .inr ⟨⟨h.booking, h.open, hx₀, h.staff, h.scheduled, h.ahead⟩, by simpa using hs, fun _ => rfl⟩
    · rw [if_neg hown] at hx
      subst hx
      exact .inr ⟨⟨h.booking, h.open, hx₀, h.staff, h.scheduled, h.ahead⟩, by simpa using hs, fun ht => absurd ht hown⟩

/-! ## What a transaction knows -/

/-- A removal that has read the member's work: it holds their lock and the candidates', and what is
ahead of the member is among what it read. -/
structure SettlesWork (p : π) (s : WorkStore π) (member : Id) (candidates visits schedules : List Id)
    (sessions : Id → Bool) : Prop where
  lock : s.locks member = some p
  candidates : ∀ c ∈ candidates, s.locks c = some p ∧ c ≠ member
  ahead : ∀ b x, VisitAhead s member b x → b.id ∈ visits ∧
    ∀ r ∈ schedules, x.recurrenceId = some r → sessions b.slotId = true
  sessions : ∀ slot, sessions slot = true → ∃ x r, s.slots slot = some x ∧ x.recurrenceId = some r ∧ r ∈ schedules

def WorkKnows (p : π) (s : WorkStore π) : WorkPlace → Prop
  | .idle => True
  | .locking c _ todo => (∀ m ∈ c.lockOrder, m ∉ todo → s.locks m = some p) ∧
    match c with
    | .remove member _ candidates => ∀ c ∈ candidates, c ≠ member
    | _ => True
  | .settling member future candidates _ visits schedules sessions =>
    SettlesWork p s member candidates visits schedules sessions ∧ (future = .refuse → visits = [])

/-- What a step of `q` leaves to `p`: it gives visits only to members it is for, under their locks. -/
structure LeavesWork (q : π) (gives : Id → Prop) (s s' : WorkStore π) : Prop where
  locks : ∀ p, p ≠ q → ∀ m, s.locks m = some p → s'.locks m = some p
  ahead : AheadFrom s s' fun m => gives m ∧ s.locks m = some q
  slots : SlotsStay s s'

section
variable {gives : Id → Prop}

theorem LeavesWork.knows (h : LeavesWork q gives s s') (hne : p ≠ q) {y : WorkPlace} (hy : WorkKnows p s y) :
    WorkKnows p s' y := by
  cases y with
  | idle => trivial
  | locking c since todo => exact ⟨fun m hm hn => h.locks p hne m (hy.1 m hm hn), hy.2⟩
  | settling member future candidates since visits schedules sessions =>
    obtain ⟨hs, href⟩ := hy
    refine ⟨⟨h.locks p hne _ hs.lock, fun c hc => ⟨h.locks p hne c (hs.candidates c hc).1, (hs.candidates c hc).2⟩,
      fun b x hb => ?_, fun slot hslot => ?_⟩, href⟩
    · obtain ⟨-, hq⟩ | ⟨b₀, x₀, h₀, hid, hslot, hr⟩ := h.ahead member b x hb
      · exact absurd (Option.some.inj (hs.lock.symm.trans hq)) hne
      · obtain ⟨hv, hses⟩ := hs.ahead b₀ x₀ h₀
        exact ⟨hid ▸ hv, fun r hmem hx => hslot ▸ hses r hmem (hr.trans hx)⟩
    · obtain ⟨x, r, hx, hr, hmem⟩ := hs.sessions slot hslot
      obtain ⟨x', hx', hr'⟩ := h.slots slot x hx
      exact ⟨x', r, hx', hr'.trans hr, hmem⟩

/-- Whoever has a visit ahead of them that they did not have was given it. -/
theorem LeavesWork.gives_new (h : LeavesWork q gives s s') {m booking : Id} (hb : HasAhead s' m booking)
    (hno : ¬HasAhead s m booking) : gives m := by
  obtain ⟨b, x, hx, hid⟩ := hb
  obtain ⟨hg, -⟩ | ⟨b₀, x₀, h₀, hid₀, -, -⟩ := h.ahead m b x hx
  · exact hg
  · exact absurd ⟨b₀, x₀, h₀, hid₀.trans hid⟩ hno

/-- Nothing moved ahead of anyone, and only locks of `q` are given back. -/
theorem LeavesWork.of_later [DecidableEq π] (hs : s'.slots = s.slots) (hb : s'.bookings = s.bookings)
    (hc : s.clock ≤ s'.clock) (hl : ∀ m, s'.locks m = if s.locks m = some q then none else s.locks m) :
    LeavesWork q gives s s' := by
  refine ⟨fun p hne m hm => ?_, .of_later hs hb hc, .of_eq hs⟩
  rw [hl, hm, if_neg fun h => hne (Option.some.inj h)]

/-- The writes of a transaction, whose locks are given back with them. -/
theorem LeavesWork.commit [DecidableEq π] {t : WorkStore π} (ha : AheadFrom s t fun m => gives m ∧ s.locks m = some q)
    (hst : SlotsStay s t) (hlt : t.locks = s.locks) (hs : s'.slots = t.slots) (hb : s'.bookings = t.bookings)
    (hc : t.clock ≤ s'.clock) (hl : ∀ m, s'.locks m = if t.locks m = some q then none else t.locks m) :
    LeavesWork q gives s s' := by
  refine ⟨fun p hne m hm => ?_, ha.trans (.of_later hs hb hc), hst.trans (.of_eq hs)⟩
  rw [hl, hlt, hm, if_neg fun h => hne (Option.some.inj h)]

end

theorem AheadFrom.weaken {locked locked' : Id → Prop} (h : AheadFrom s s' locked) (hl : ∀ m, locked m → locked' m) :
    AheadFrom s s' locked' := fun m b x hx => (h m b x hx).imp (hl m) id

theorem cancelVisits_leaves (member : Id) (visits : List Id) (sessions : Id → Bool) {locked : Id → Prop} :
    AheadFrom s (s.cancelVisits member visits sessions) locked ∧ SlotsStay s (s.cancelVisits member visits sessions) := by
  constructor
  · intro m b x hx
    exact .inr ⟨b, x, (canceled_ahead hx).1, rfl, rfl, rfl⟩
  · refine .map (fun slot x => ?_) rfl
    split <;> rfl

theorem reassignVisits_stay (member : Id) (candidates visits schedules : List Id) (sessions : Id → Bool)
    (free : Id → Id → Bool) (schedule : Id → Id) (follow : Id → Option Id) :
    SlotsStay s (s.reassignVisits member candidates visits schedules sessions free schedule follow) := by
  refine .map (fun slot x => ?_) rfl
  split
  · rfl
  · split <;> rfl

section
variable [DecidableEq π] {x x' : WorkPlace}

theorem WorkStep.leaves (hs : WorkStep p s x s' x') (hx : WorkKnows p s x) : LeavesWork p x.gives s s' := by
  have hsame : LeavesWork p x.gives s s := ⟨fun _ _ _ h => h, .of_later rfl rfl le_rfl, .of_eq rfl⟩
  cases hs with
  | tick h => exact ⟨fun _ _ _ h => h, .of_later rfl rfl h, .of_eq rfl⟩
  | @close booking status h =>
    refine ⟨fun _ _ _ h => h, closed_aheadFrom fun b ho => ?_, .of_eq rfl⟩
    by_cases hid : b.id = booking
    · rw [if_pos hid] at ho
      exact absurd (h.symm.trans ho) (by decide)
    · rw [if_neg hid]
  | create hm => exact hsame
  | patch hb ho hx ht hs => exact hsame
  | remove hm hc => exact hsame
  | @lock c since m todo hl =>
    refine ⟨fun q hne m' hm' => ?_, .of_later rfl rfl le_rfl, .of_eq rfl⟩
    have hne' : m' ≠ m := fun he => by
      rw [he, hl] at hm'
      cases hm'
    show Function.update s.locks m (some p) m' = some q
    rw [Function.update_of_ne hne', hm']
  | @created t member since bookings h =>
    have hb := books_run h
    have hlock : s.locks member = some p :=
      hx.1 member (WorkCommand.mem_lockOrder.2 rfl) (by simp)
    exact .commit (hb.ahead.weaken fun m hm => ⟨hm, hm ▸ hlock⟩) hb.slots hb.locks rfl rfl le_rfl fun _ => rfl
  | @patched b slot held staff startsAt since x hb ho hx' =>
    have hlock : s.locks staff = some p := hx.1 staff (WorkCommand.mem_lockOrder.2 (.inr rfl)) (by simp)
    exact .commit (patched_aheadFrom.weaken fun m hm => ⟨hm, hm ▸ hlock⟩) (patched_slotsStay hx') rfl rfl rfl le_rfl
      fun _ => rfl
  | read h => exact hsame
  | refused => exact .of_later rfl rfl le_rfl fun _ => rfl
  | @canceled member candidates since visits schedules sessions =>
    have hleaves : AheadFrom s (s.cancelVisits member visits sessions) (fun m => m ∈ candidates ∧ s.locks m = some p) ∧
        SlotsStay s (s.cancelVisits member visits sessions) := cancelVisits_leaves member visits sessions
    exact .commit hleaves.1 hleaves.2 rfl rfl rfl le_rfl fun _ => rfl
  | @reassigned member candidates since visits schedules sessions free schedule follow hsch hf =>
    refine .commit (t := s.reassignVisits member candidates visits schedules sessions free schedule follow)
      (fun m b x hb => ?_) (reassignVisits_stay _ _ _ _ _ _ _ _) rfl rfl rfl le_rfl fun _ => rfl
    obtain hc | ⟨hb', -, -⟩ := reassigned_ahead hsch hx.1.sessions hb
    · exact .inl ⟨hc, (hx.1.candidates m hc).1⟩
    · exact .inr ⟨b, x, hb', rfl, rfl, rfl⟩
  | rollback => exact .of_later rfl rfl le_rfl fun _ => rfl

/-- What the removal reads is all that is ahead of the member. -/
theorem WorkStep.knows_own (hs : WorkStep p s x s' x') (hx : WorkKnows p s x) : WorkKnows p s' x' := by
  cases hs with
  | create hm => exact ⟨fun m hm' hn => absurd hm' hn, trivial⟩
  | patch hb ho hx ht hs => exact ⟨fun m hm' hn => absurd hm' hn, trivial⟩
  | remove hm hc => exact ⟨fun m hm' hn => absurd hm' hn, fun c hc' => (hc c hc').1⟩
  | @lock c since m todo hl =>
    refine ⟨fun m' hm' hn => ?_, hx.2⟩
    show Function.update s.locks m (some p) m' = some p
    by_cases he : m' = m
    · rw [he, Function.update_self]
    · rw [Function.update_of_ne he]
      exact hx.1 m' hm' fun h => (List.mem_cons.1 h).elim he hn
  | @read member future candidates since h =>
    have hheld : ∀ m ∈ (WorkCommand.remove member future candidates).lockOrder, s.locks m = some p :=
      fun m hm => hx.1 m hm (by simp)
    refine ⟨⟨hheld member (WorkCommand.mem_lockOrder.2 (.inl rfl)), fun c hc => ?_, fun b x hb => ?_, fun slot hslot => ?_⟩,
      fun hf => by rw [(h hf).1]; rfl⟩
    · exact ⟨hheld c (WorkCommand.mem_lockOrder.2 (.inr hc)), hx.2 c hc⟩
    · refine ⟨List.mem_map.2 ⟨b, List.mem_filter.2 ⟨hb.booking, visitOf_iff.2
        ⟨hb.open, x, hb.slot, hb.staff, hb.scheduled, decide_eq_true hb.ahead.le⟩⟩, rfl⟩, fun r hr hx' => ?_⟩
      have hne : x.status ≠ .canceled := fun he => by
        have hsch := hb.scheduled
        rw [he] at hsch
        cases hsch
      exact sessionOf_iff.2 ⟨x, r, hb.slot, hne, hb.ahead, hx', hr⟩
    · obtain ⟨x, r, hx', -, -, hr, hmem⟩ := sessionOf_iff.1 hslot
      exact ⟨x, r, hx', hr, hmem⟩
  | _ => trivial

/-- A removal that commits leaves nothing ahead of the member but what it reports. -/
theorem WorkStep.removals (hs : WorkStep p s x s' x') (hx : WorkKnows p s x) : s'.removals = s.removals ∧ s'.members = s.members ∨
    ∃ e, s'.removals = s.removals ++ [e] ∧ s'.members = Function.update s.members e.member .removed ∧
      ∀ b y, VisitAhead s' e.member b y → b.id ∈ e.left := by
  cases hs with
  | @created t member since bookings h => exact .inl ⟨(books_run h).removals, (books_run h).members⟩
  | @refused member candidates since visits schedules sessions =>
    refine .inr ⟨⟨member, []⟩, rfl, rfl, fun b y hb => ?_⟩
    have hv := (hx.1.ahead b y (hb.of_later rfl rfl le_rfl)).1
    rw [hx.2 rfl] at hv
    cases hv
  | @canceled member candidates since visits schedules sessions =>
    refine .inr ⟨⟨member, []⟩, rfl, rfl, fun b y hb => ?_⟩
    have hb' : VisitAhead (s.cancelVisits member visits sessions) member b y := hb.of_later rfl rfl le_rfl
    obtain ⟨hold, hnot⟩ := canceled_ahead hb'
    exact absurd (mem_liveVisits.2 ⟨hold.booking, (hx.1.ahead b y hold).1, hold.open⟩) hnot
  | @reassigned member candidates since visits schedules sessions free schedule follow hsch hf =>
    refine .inr ⟨⟨member, _⟩, rfl, rfl, fun b y hb => ?_⟩
    have hb' : VisitAhead (s.reassignVisits member candidates visits schedules sessions free schedule follow) member b y :=
      hb.of_later rfl rfl le_rfl
    obtain hc | ⟨hold, hses, htaker⟩ := reassigned_ahead hsch hx.1.sessions hb'
    · exact absurd rfl (hx.1.candidates member hc).2
    obtain ⟨hvisit, hsession⟩ := hx.1.ahead b y hold
    have hlive := mem_liveVisits.2 ⟨hold.booking, hvisit, hold.open⟩
    have hown : s.ownSlot visits schedules b.slotId = true := by
      unfold WorkStore.ownSlot
      rw [Bool.and_eq_true]
      refine ⟨List.any_eq_true.2 ⟨b, hlive, by simp⟩, ?_⟩
      rw [hold.slot]
      cases hr : y.recurrenceId with
      | none => simp [hr]
      | some r =>
        have hnot : r ∉ schedules := fun hmem => by
          rw [hsession r hmem hr] at hses
          cases hses
        simp [hr, hnot]
    exact List.mem_map.2 ⟨b, List.mem_filter.2 ⟨hlive, by rw [hown, htaker hown]; rfl⟩, rfl⟩
  | _ => exact .inl ⟨rfl, rfl⟩

end

/-! ## Runs -/

/-- Whoever was removed is not active, and has nothing ahead of them but what their removal left. -/
def RemovalsKept (s : WorkStore π) : Prop :=
  ∀ e ∈ s.removals, s.members e.member ≠ .active ∧ ∀ booking, HasAhead s e.member booking → booking ∈ e.left

/-- None of the removals that had committed when a transaction read who is active is of a member to
whom it gives visits. -/
def AskedActive (s : WorkStore π) (x : WorkPlace) : Prop :=
  x.checked ≤ s.removals.length ∧ ∀ m, x.gives m → ∀ e ∈ s.removals.take x.checked, e.member ≠ m

structure WorkKnown (w : World π (WorkStore π) WorkPlace) : Prop where
  kept : RemovalsKept w.store
  knows : ∀ p, WorkKnows p w.store (w.place p)
  asked : ∀ p, AskedActive w.store (w.place p)

/-- More removals do not touch what was asked before. -/
theorem AskedActive.of_grown {x : WorkPlace} (hx : AskedActive s x) {es : List RemovalRecord}
    (h : s'.removals = s.removals ++ es) : AskedActive s' x := by
  obtain ⟨hle, hno⟩ := hx
  constructor
  · rw [h, List.length_append]
    omega
  · rw [h, List.take_append_of_le_length hle]
    exact hno

theorem checked_le (c : WorkCommand) (since : Nat) (todo : List Id) :
    (WorkPlace.locking c since todo).checked ≤ since := by
  cases c with
  | create member => exact le_refl _
  | patch booking slot held staff startsAt =>
    show (if staff = held then 0 else since) ≤ since
    split
    · exact Nat.zero_le _
    · exact le_refl _
  | remove member future candidates => exact le_refl _

/-- A transaction whose members are all active at its read. -/
theorem AskedActive.of_read (hk : RemovalsKept s) {c : WorkCommand} {todo : List Id}
    (hactive : ∀ m, c.gives m → s.members m = .active ∨ (WorkPlace.locking c s.removals.length todo).checked = 0) :
    AskedActive s (.locking c s.removals.length todo) := by
  refine ⟨checked_le c _ todo, ?_⟩
  rintro m hm e he rfl
  obtain ha | h0 := hactive e.member hm
  · exact (hk e (List.mem_of_mem_take he)).1 ha
  · rw [h0] at he
    cases he

section
variable [DecidableEq π] {x x' : WorkPlace}

theorem WorkStep.asked_own (hs : WorkStep p s x s' x') (hk : RemovalsKept s) (hx : AskedActive s x) :
    AskedActive s' x' := by
  have hidle : ∀ t : WorkStore π, AskedActive t .idle := fun t => ⟨Nat.zero_le _, fun _ h => h.elim⟩
  cases hs with
  | create hm => exact .of_read hk fun m he => .inl (he ▸ hm)
  | @patch b x staff startsAt hb ho hx ht hs =>
    refine .of_read hk fun m he => ?_
    obtain rfl : m = staff := he
    by_cases hheld : m = x.staffId
    · exact .inr (if_pos hheld)
    · exact .inl (ht hheld).1
  | remove hm hc => exact .of_read hk fun m he => .inl (hc m he).2
  | @lock c since m todo hl =>
    have hsame : AskedActive s (.locking c since todo) := by cases c <;> exact hx
    exact hsame.of_grown (List.append_nil s.removals).symm
  | read h => exact hx
  | _ => exact hidle _

/-- Nobody to whom a step gives a visit was removed. -/
theorem WorkStep.gives_kept (hs : WorkStep p s x s' x') (hx : WorkKnows p s x) (ha : AskedActive s x)
    (hgiven : ∀ m booking, HasAhead s' m booking → ¬HasAhead s m booking →
      ∀ e ∈ s.removals.drop x.checked, e.member ≠ m) {e : RemovalRecord} (he : e ∈ s.removals) {booking : Id}
    (hb : HasAhead s' e.member booking) : HasAhead s e.member booking := by
  by_contra hno
  have hg := (hs.leaves hx).gives_new hb hno
  rw [← List.take_append_drop x.checked s.removals] at he
  obtain hbefore | hsince := List.mem_append.1 he
  · exact ha.2 e.member hg e hbefore rfl
  · exact hgiven e.member booking hb hno e hsince rfl

theorem WorkStep.removalsKept (hs : WorkStep p s x s' x') (hx : WorkKnows p s x) (hk : RemovalsKept s)
    (hold : ∀ e ∈ s.removals, ∀ booking, HasAhead s' e.member booking → HasAhead s e.member booking) :
    RemovalsKept s' := by
  obtain ⟨hr, hm⟩ | ⟨e, hr, hm, hleft⟩ := hs.removals hx
  · intro e he
    rw [hr] at he
    rw [hm]
    exact ⟨(hk e he).1, fun booking hb => (hk e he).2 booking (hold e he booking hb)⟩
  · intro e' he'
    rw [hr] at he'
    rw [hm]
    obtain he' | he' := List.mem_append.1 he'
    · refine ⟨fun ha => ?_, fun booking hb => (hk e' he').2 booking (hold e' he' booking hb)⟩
      by_cases hsame : e'.member = e.member
      · rw [hsame, Function.update_self] at ha
        cases ha
      · rw [Function.update_of_ne hsame] at ha
        exact (hk e' he').1 ha
    · obtain rfl := List.mem_singleton.1 he'
      refine ⟨by rw [Function.update_self]; exact fun h => StaffStatus.noConfusion h, ?_⟩
      rintro booking ⟨b, y, hb, rfl⟩
      exact hleft b y hb

theorem WorkStep.removals_grown (hs : WorkStep p s x s' x') (hx : WorkKnows p s x) :
    ∃ es, s'.removals = s.removals ++ es := by
  obtain ⟨hr, -⟩ | ⟨e, hr, -, -⟩ := hs.removals hx
  · exact ⟨[], by rw [hr, List.append_nil]⟩
  · exact ⟨[e], hr⟩

end

theorem workKnown_step [DecidableEq π] {w w' : World π (WorkStore π) WorkPlace} (h : WorkKnown w) (hs : GivenStep w p w') :
    WorkKnown w' := by
  obtain ⟨hs, hgiven⟩ := hs
  cases hs with
  | step hs =>
    have hold : ∀ e ∈ w.store.removals, ∀ booking, HasAhead _ e.member booking → HasAhead w.store e.member booking :=
      fun e he booking hb => hs.gives_kept (h.knows p) (h.asked p) hgiven he hb
    obtain ⟨es, hgrown⟩ := hs.removals_grown (h.knows p)
    refine ⟨hs.removalsKept (h.knows p) h.kept hold, fun q => ?_, fun q => ?_⟩
    · by_cases hq : q = p
      · subst hq
        show WorkKnows q _ (Function.update w.place q _ q)
        rw [Function.update_self]
        exact hs.knows_own (h.knows q)
      · show WorkKnows q _ (Function.update w.place p _ q)
        rw [Function.update_of_ne hq]
        exact (hs.leaves (h.knows p)).knows hq (h.knows q)
    · by_cases hq : q = p
      · subst hq
        show AskedActive _ (Function.update w.place q _ q)
        rw [Function.update_self]
        exact hs.asked_own h.kept (h.asked q)
      · show AskedActive _ (Function.update w.place p _ q)
        rw [Function.update_of_ne hq]
        exact (h.asked q).of_grown hgrown

/-- A business without open transactions, before any removal. -/
structure TeamAtRest (w : World π (WorkStore π) WorkPlace) : Prop where
  idle : ∀ p, w.place p = .idle
  removals : w.store.removals = []

/-- Once a removal has committed, the member has no visit ahead but those it left. -/
theorem removed_hold_no_work [DecidableEq π] {w w' : World π (WorkStore π) WorkPlace} {ps : List π} (h0 : TeamAtRest w)
    (hr : Run GivenStep w ps w') : ∀ e ∈ w'.store.removals, ∀ booking, HasAhead w'.store e.member booking → booking ∈ e.left := by
  have hstart : WorkKnown w := by
    refine ⟨fun e he => ?_, fun p => ?_, fun p => ?_⟩
    · rw [h0.removals] at he
      cases he
    · rw [h0.idle]
      trivial
    · rw [h0.idle]
      exact ⟨Nat.zero_le _, fun _ h => h.elim⟩
  have hk := hr.invariant (fun _ _ _ hi hs => workKnown_step hi hs) hstart
  exact fun e he => (hk.kept e he).2

/-! ## A visit booked while its member is removed -/

/-- Two members, and a visit that the first has tomorrow. -/
def salonStore {π : Type} (bookings : List WorkBooking) : WorkStore π where
  members := fun m => if m = "ann" ∨ m = "bob" then .active else .removed
  slots := fun slot => if slot = "slot" then some ⟨"ann", 24, .scheduled, 1, none⟩ else none
  bookings := bookings
  series := []
  locks := fun _ => none
  clock := 0
  removals := []

def salonVisit : WorkBooking := ⟨"visit", "slot", .confirmed⟩

def salonWorld {π : Type} (bookings : List WorkBooking) : World π (WorkStore π) WorkPlace :=
  ⟨salonStore bookings, fun _ => .idle⟩

theorem salonWorld_rest {π : Type} (bookings : List WorkBooking) : TeamAtRest (π := π) (salonWorld bookings) :=
  ⟨fun _ => rfl, rfl⟩

/-- Before the first removal commits, whoever is given a visit was not removed. -/
theorem given_first [DecidableEq π] {w w' : World π (WorkStore π) WorkPlace} (h : Interleaved WorkStep w p w')
    (hr : w.store.removals = []) : GivenStep w p w' := by
  refine ⟨h, fun m booking _ _ e he => ?_⟩
  rw [hr, List.drop_nil] at he
  cases he

/-- Bob is found active to be booked; then Ann leaves, and Bob takes her visit. -/
theorem salon_left : ∃ w : World Bool (WorkStore Bool) WorkPlace,
    Run GivenStep (salonWorld [salonVisit]) [true, false, false, false, false, false] w ∧
    w.place true = .locking (.create "bob") 0 ["bob"] ∧ w.store.locks "bob" = none ∧
    w.store.removals = [⟨"ann", []⟩] ∧ w.store.bookings = [salonVisit] ∧ w.store.clock = 0 ∧
    w.store.slots "slot" = some ⟨"bob", 24, .scheduled, 1, none⟩ ∧ w.store.slots "later" = none := by
  have hr : Run GivenStep (salonWorld [salonVisit]) [true, false, false, false, false, false] _ :=
    .cons (given_first (.from rfl (@WorkStep.create Bool _ true _ "bob" (by decide))) rfl) <|
    .cons (given_first (.from rfl (@WorkStep.remove Bool _ false _ "ann" .reassign ["bob"] (by decide) (by decide)))
      rfl) <|
    .cons (given_first (.from (x := .locking (.remove "ann" .reassign ["bob"]) 0 ["ann", "bob"]) rfl
      (@WorkStep.lock Bool _ false _ _ _ "ann" ["bob"] rfl)) rfl) <|
    .cons (given_first (.from rfl (@WorkStep.lock Bool _ false _ _ _ "bob" [] rfl)) rfl) <|
    .cons (given_first (.from rfl (@WorkStep.read Bool _ false _ "ann" .reassign ["bob"] _
      fun h => FutureChoice.noConfusion h)) rfl) <|
    .cons (given_first (.from rfl (@WorkStep.reassigned Bool _ false _ "ann" ["bob"] _ _ _ _ (fun _ _ => true)
      (fun _ => "bob") (fun _ => none) (by simp) (by simp))) rfl) .nil
  exact ⟨_, hr, rfl, rfl, rfl, rfl, rfl, rfl, rfl⟩

/-- Then Bob is booked, as he was found active: the removal between was Ann's. -/
theorem salon_reassigned : ∃ (w' : World Bool (WorkStore Bool) WorkPlace) (ps : List Bool),
    Run GivenStep (salonWorld [salonVisit]) ps w' ∧
    w'.store.slots "slot" = some ⟨"bob", 24, .scheduled, 1, none⟩ ∧ HasAhead w'.store "bob" "new" ∧
    ∀ booking, ¬HasAhead w'.store "ann" booking := by
  obtain ⟨w, hr, hp, hl, hremovals, hbookings, hclock, hslot, hlater⟩ := salon_left
  have hr₁ := hr.snoc ⟨.from hp (.lock hl), fun _ _ hb hno => (hno (hb.of_later rfl rfl le_rfl)).elim⟩
  have hknown : WorkKnown _ := hr₁.invariant (fun _ _ _ hi hs => workKnown_step hi hs)
    ⟨fun e he => (List.not_mem_nil he).elim, fun _ => trivial, fun _ => ⟨Nat.zero_le _, fun _ h => h.elim⟩⟩
  have hone := @BookOne.own Bool "bob" { w.store with locks := Function.update w.store.locks "bob" (some true) }
    ⟨"new", "later", .confirmed⟩ 48 1 none (by rw [hbookings]; decide) rfl hlater
  have hplace : Function.update w.place true (.locking (.create "bob") 0 []) true = .locking (.create "bob") 0 [] :=
    Function.update_self ..
  have hbooked := @WorkStep.created Bool _ true _ _ _ 0 _ (.cons hone .nil)
  have hknows := hplace ▸ hknown.knows true
  have hr₂ := hr₁.snoc ⟨.from hplace hbooked, fun m booking hb hno e he => by
    obtain rfl : m = "bob" := (hbooked.leaves hknows).gives_new hb hno
    change e ∈ w.store.removals.drop (Function.update w.place true (.locking (.create "bob") 0 []) true).checked at he
    rw [hplace] at he
    obtain rfl : e = ⟨"ann", []⟩ := List.mem_singleton.1 (hremovals ▸ he)
    decide⟩
  have hleft := removed_hold_no_work (salonWorld_rest [salonVisit]) hr₂ ⟨"ann", []⟩
    (show _ ∈ w.store.removals from hremovals ▸ List.mem_cons_self)
  refine ⟨_, _, hr₂, ?_, ⟨⟨"new", "later", .confirmed⟩, ⟨"bob", 48, .scheduled, 1, none⟩, ⟨?_, rfl, ?_, rfl, rfl, ?_⟩, rfl⟩,
    fun booking h => List.not_mem_nil (hleft booking h)⟩
  · show Function.update w.store.slots "later" (some ⟨"bob", 48, .scheduled, 1, none⟩) "slot" = _
    rw [Function.update_of_ne (by decide), hslot]
  · exact List.mem_append_right _ List.mem_cons_self
  · exact Function.update_self "later" _ w.store.slots
  · show w.store.clock < 48
    rw [hclock]
    decide

/-- Ann is read as active, her removal finds no visit and commits, and then she is booked. -/
theorem booked_after_removal : ∃ (w' : World Bool (WorkStore Bool) WorkPlace) (ps : List Bool),
    TeamAtRest (π := Bool) (salonWorld []) ∧ Run (Interleaved WorkStep) (salonWorld []) ps w' ∧
    (⟨"ann", []⟩ : RemovalRecord) ∈ w'.store.removals ∧ HasAhead w'.store "ann" "visit" := by
  have hr : Run (Interleaved WorkStep) (salonWorld []) [true, false, false, false, false, true, true] _ :=
    .cons (.from rfl (@WorkStep.create Bool _ true _ "ann" (by decide))) <|
    .cons (.from rfl (@WorkStep.remove Bool _ false _ "ann" .refuse [] (by decide) (by simp))) <|
    .cons (.from (x := .locking (.remove "ann" .refuse []) 0 ["ann"]) rfl
      (@WorkStep.lock Bool _ false _ _ _ "ann" [] rfl)) <|
    .cons (.from rfl (@WorkStep.read Bool _ false _ "ann" .refuse [] _ fun _ => ⟨rfl, rfl⟩)) <|
    .cons (.from rfl (@WorkStep.refused Bool _ false _ "ann" [] _ _ _ _)) <|
    .cons (.from (x := .locking (.create "ann") 0 ["ann"]) rfl (@WorkStep.lock Bool _ true _ _ _ "ann" [] rfl)) <|
    .cons (.from rfl (@WorkStep.created Bool _ true _ _ "ann" _ [⟨"visit", "new", .confirmed⟩]
      (.cons (@BookOne.own Bool "ann" _ ⟨"visit", "new", .confirmed⟩ 24 1 none (fun _ h => (List.not_mem_nil h).elim) rfl rfl)
        .nil))) .nil
  exact ⟨_, _, salonWorld_rest [], hr, List.mem_cons_self, _, _,
    ⟨List.mem_cons_self, rfl, rfl, rfl, rfl, by decide⟩, rfl⟩

end ClientBridge
