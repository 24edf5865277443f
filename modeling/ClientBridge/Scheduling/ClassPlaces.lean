import ClientBridge.Scheduling.ClassRuns

/-!
# One place each

An online booking, an addition to the roster and a waitlist all ask whether whoever the place is for has one already
(`hasSeat`), under the lock the booking is made under; the desk does not ask.  Nothing else makes a booking, and what
changes one only takes it on (`NoneMade`): a completed or canceled visit stays so, whatever a request had read of it
before (`statuses_follow`).  So whoever is never booked at the desk has one place in a session at most, however requests
interleave (`one_place_each`).
-/

namespace ClientBridge

open Calendar Runs Waitlists

/-! ## Places -/

/-- Who a place is for: the subject, or the client where there is none. -/
inductive Holder where
  | client (id : Id)
  | subject (id : Id)
  deriving DecidableEq, Repr

def holderOf (clientId : Id) : Option Id → Holder
  | none => .client clientId
  | some subject => .subject subject

namespace SeatBooking

def holder (b : SeatBooking) : Holder := holderOf b.clientId b.subjectId

/-- A seat, or a place in line. -/
def stands (b : SeatBooking) : Bool := !b.deleted && decide (b.status ≠ .canceled)

end SeatBooking

/-- What a booking's status can come to: a client waits before they have a seat, a request is answered once, and a
completed or canceled visit stays so. -/
def BookingStatus.reaches (a b : BookingStatus) : Bool :=
  match a with
  | .waitlisted => decide (b ≠ .pending)
  | .pending => decide (b ≠ .waitlisted)
  | .confirmed | .noShow => b.terminal || decide (b = .confirmed)
  | .completed | .canceled => decide (b = a)

/-- Someone has one place on a slot at most. -/
def OnePlace (who : Holder) (db : RosterDb) : Prop :=
  ∀ b ∈ db.bookings, ∀ c ∈ db.bookings, b.slotId = c.slotId → b.stands = true → c.stands = true → b.holder = who →
    c.holder = who → b.id = c.id

/-- No booking is made, and those there are only go on. -/
structure NoneMade (db db' : RosterDb) : Prop where
  ids : db'.bookings.map (·.id) = db.bookings.map (·.id)
  goesOn : ∀ b' ∈ db'.bookings, ∃ b ∈ db.bookings, b.id = b'.id ∧ b.slotId = b'.slotId ∧ b.holder = b'.holder ∧
    b.deleted = b'.deleted ∧ b.status.reaches b'.status = true

section
variable {db db' db'' : RosterDb} {who : Holder} {b : SeatBooking} {now : Int} {slot : VisitSlot}

theorem hasSeat_iff (slotId clientId : Id) (subjectId : Option Id) : db.hasSeat slotId clientId subjectId = true ↔
    ∃ b ∈ db.bookings, b.slotId = slotId ∧ b.stands = true ∧ b.holder = holderOf clientId subjectId := by
  unfold ScheduleDb.hasSeat
  rw [List.any_eq_true]
  refine exists_congr fun b => and_congr_right fun _ => ?_
  cases subjectId <;> cases hb : b.subjectId <;>
    simp [SeatBooking.stands, SeatBooking.holder, holderOf, hb, and_assoc]

theorem reaches_refl (a : BookingStatus) : a.reaches a = true := by cases a <;> rfl

theorem reaches_trans {a b c : BookingStatus} (h : a.reaches b = true) (h' : b.reaches c = true) :
    a.reaches c = true := by
  revert h h'
  cases a <;> cases b <;> cases c <;> decide

theorem reaches_canceled {a : BookingStatus} (h : a.open = true) : a.reaches .canceled = true := by
  cases a <;> first
    | rfl
    | cases h

theorem open_of_seated {a : BookingStatus} (h : a.seated = true) : a.open = true := by
  cases a <;> first
    | rfl
    | cases h

theorem reaches_patched {a : BookingStatus} (h : ¬a.terminal = true) (status : PatchedStatus) :
    a.reaches status.status = true := by
  cases a <;> first
    | exact absurd rfl h
    | cases status <;> rfl

/-- A booking that stands stood before. -/
theorem stands_before {b' : SeatBooking} (hdel : b.deleted = b'.deleted) (hstatus : b.status.reaches b'.status = true)
    (h : b'.stands = true) : b.stands = true := by
  simp only [SeatBooking.stands, Bool.and_eq_true, decide_eq_true_eq] at h ⊢
  refine ⟨hdel ▸ h.1, fun hc => h.2 ?_⟩
  rw [hc] at hstatus
  exact of_decide_eq_true hstatus

theorem OnePlace.noneMade (h : OnePlace who db) (hm : NoneMade db db') : OnePlace who db' := by
  intro b' hb' c' hc' hslot hstands hstands' hwho hwho'
  obtain ⟨b, hb, hid, hbslot, hbholder, hbdel, hbstatus⟩ := hm.goesOn b' hb'
  obtain ⟨c, hc, hid', hcslot, hcholder, hcdel, hcstatus⟩ := hm.goesOn c' hc'
  have hsame := h b hb c hc (by rw [hbslot, hcslot, hslot]) (stands_before hbdel hbstatus hstands)
    (stands_before hcdel hcstatus hstands') (hbholder.trans hwho) (hcholder.trans hwho')
  rw [← hid, ← hid', hsame]

/-- A booking is made where whoever it is for has no place. -/
theorem OnePlace.append (h : OnePlace who db) (hbookings : db'.bookings = db.bookings ++ [b])
    (hasked : b.holder = who → ∀ c ∈ db.bookings, c.slotId = b.slotId → c.stands = true → c.holder ≠ who) :
    OnePlace who db' := by
  intro c hc d hd hslot hcs hds hcw hdw
  rw [hbookings, List.mem_append, List.mem_singleton] at hc hd
  rcases hc with hc | rfl
  · rcases hd with hd | rfl
    · exact h c hc d hd hslot hcs hds hcw hdw
    · exact absurd hcw (hasked hdw c hc hslot hcs)
  · rcases hd with hd | rfl
    · exact absurd hdw (hasked hcw d hd hslot.symm hds)
    · rfl

/-- `hasSeat` says no. -/
theorem unseated {slotId clientId : Id} {subjectId : Option Id} (h : db.hasSeat slotId clientId subjectId = false) :
    ∀ c ∈ db.bookings, c.slotId = slotId → c.stands = true → c.holder ≠ holderOf clientId subjectId := by
  intro c hc hslot hstands hholder
  rw [(hasSeat_iff slotId clientId subjectId).2 ⟨c, hc, hslot, hstands, hholder⟩] at h
  cases h

/-! ## What makes no booking -/

namespace NoneMade

theorem of_bookings (h : db'.bookings = db.bookings) : NoneMade db db' :=
  ⟨congrArg _ h, fun b hb => ⟨b, h ▸ hb, rfl, rfl, rfl, rfl, reaches_refl b.status⟩⟩

theorem refl (db : RosterDb) : NoneMade db db := of_bookings rfl

theorem trans (h : NoneMade db db') (h' : NoneMade db' db'') : NoneMade db db'' := by
  refine ⟨h'.ids.trans h.ids, fun b'' hb'' => ?_⟩
  obtain ⟨b', hb', hid', hslot', hholder', hdel', hstatus'⟩ := h'.goesOn b'' hb''
  obtain ⟨b, hb, hid, hslot, hholder, hdel, hstatus⟩ := h.goesOn b' hb'
  exact ⟨b, hb, hid.trans hid', hslot.trans hslot', hholder.trans hholder', hdel.trans hdel',
    reaches_trans hstatus hstatus'⟩

theorem unique (h : NoneMade db db') (hids : (db.bookings.map (·.id)).Nodup) : (db'.bookings.map (·.id)).Nodup :=
  h.ids ▸ hids

/-- One change after another. -/
theorem foldl {β : Type} {f : RosterDb → β → RosterDb}
    (hf : ∀ (db : RosterDb) x, (db.bookings.map (·.id)).Nodup → NoneMade db (f db x)) (xs : List β)
    (hids : (db.bookings.map (·.id)).Nodup) : NoneMade db (xs.foldl f db) := by
  induction xs generalizing db with
  | nil => exact refl db
  | cons x xs ih =>
    have hx := hf db x hids
    exact hx.trans (ih (hx.unique hids))

end NoneMade

theorem noneMade_setStatus (id : Id) (status : BookingStatus)
    (h : ∀ b ∈ db.bookings, b.id = id → b.status.reaches status = true) : NoneMade db (db.setStatus id status) := by
  refine ⟨map_amend _ fun _ _ _ => rfl, fun b' hb' => ?_⟩
  obtain ⟨b, hb, rfl⟩ := mem_amend.1 hb'
  refine ⟨b, hb, ?_⟩
  split
  · next hid => exact ⟨rfl, rfl, rfl, rfl, h b hb hid⟩
  · exact ⟨rfl, rfl, rfl, rfl, reaches_refl b.status⟩

/-- One booking goes on. -/
theorem noneMade_goOn (hids : (db.bookings.map (·.id)).Nodup) (hb : b ∈ db.bookings) {status : BookingStatus}
    (h : b.status.reaches status = true) : NoneMade db (db.setStatus b.id status) := by
  refine noneMade_setStatus b.id status fun c hc hid => ?_
  obtain rfl := List.inj_on_of_nodup_map hids hc hb hid
  exact h

/-! ### Seats that come free -/

theorem noneMade_fillSeats (n : Nat) (hids : (db.bookings.map (·.id)).Nodup) : NoneMade db (db.fillSeats slot n) := by
  induction n generalizing db with
  | zero => exact .refl db
  | succ n ih =>
    unfold RosterDb.fillSeats
    split
    · cases hf : (seatDesk slot.id).first db.bookings with
      | none => exact .refl db
      | some b =>
        obtain ⟨hb, hwaits⟩ := Desk.first_mem hf
        have hstatus : b.status.reaches .confirmed = true := by
          simp only [seatDesk, SeatBooking.waitsFor, Bool.and_eq_true, decide_eq_true_eq] at hwaits
          rw [hwaits.2]
          rfl
        have hseat : NoneMade db (db.seatBooking b.id) := (noneMade_goOn hids hb hstatus).trans (.of_bookings rfl)
        exact hseat.trans (ih (hseat.unique hids))
    · exact .refl db

theorem noneMade_fillFreedSeats (hids : (db.bookings.map (·.id)).Nodup) :
    NoneMade db (db.fillFreedSeats now slot) := by
  unfold RosterDb.fillFreedSeats
  split
  · exact .refl db
  · split
    · exact .refl db
    · exact noneMade_fillSeats _ hids

theorem noneMade_releaseSlot (slot : VisitSlot) : NoneMade db (db.releaseSlot slot).1 := by
  unfold RosterDb.releaseSlot
  split
  · exact .refl db
  · split
    · exact .refl db
    · exact .of_bookings rfl

theorem noneMade_completeWhenDone (slot : VisitSlot) : NoneMade db (db.completeWhenDone slot) := by
  unfold RosterDb.completeWhenDone
  split
  · exact .refl db
  · exact .of_bookings rfl

theorem noneMade_dropDeposit (id : Id) : NoneMade db (db.dropDeposit id) := .of_bookings rfl

theorem noneMade_cancelBooking (hids : (db.bookings.map (·.id)).Nodup) (hb : b ∈ db.bookings)
    (h : b.status.reaches .canceled = true) : NoneMade db (db.cancelBooking now b slot) := by
  have hcancel : NoneMade db ((db.dropDeposit b.id).setStatus b.id .canceled) := by
    have hids0 : ((db.dropDeposit b.id).bookings.map (·.id)).Nodup := hids
    have hb0 : b ∈ (db.dropDeposit b.id).bookings := hb
    exact (noneMade_dropDeposit b.id).trans (noneMade_goOn hids0 hb0 h)
  have hrelease := hcancel.trans (noneMade_releaseSlot slot)
  unfold RosterDb.cancelBooking
  dsimp only
  split
  · exact hrelease.trans (noneMade_fillFreedSeats (hrelease.unique hids))
  · exact hrelease

/-! ### Requests -/

theorem noneMade_cancelSeated (ids : List Id) (hids : (db.bookings.map (·.id)).Nodup) :
    NoneMade db (db.cancelSeated now ids) := by
  refine NoneMade.foldl (fun db id hids => ?_) ids hids
  cases hb : db.booking? id with
  | none => exact .refl db
  | some b =>
    dsimp only
    cases hs : db.slot? b.slotId with
    | none => exact .refl db
    | some slot =>
      dsimp only
      split
      · next hseated =>
        exact noneMade_cancelBooking hids (booking?_mem hb).1 (reaches_canceled (open_of_seated hseated))
      · exact .refl db

theorem noneMade_cancelOnline {policy : ManagePolicy} {id : Id} (hids : (db.bookings.map (·.id)).Nodup)
    (hok : db.cancelOnline policy now id = .ok db') : NoneMade db db' := by
  unfold RosterDb.cancelOnline at hok
  cases hb : db.booking? id with
  | none =>
    rw [hb] at hok
    cases hok
  | some b =>
    rw [hb] at hok
    dsimp only at hok
    cases hs : db.slot? b.slotId with
    | none =>
      rw [hs] at hok
      cases hok
    | some slot =>
      rw [hs] at hok
      dsimp only at hok
      split at hok
      · cases hok
      · next hstatus =>
        split at hok
        · cases hok
        · split at hok
          · cases hok
          · obtain rfl := Except.ok.inj hok
            refine noneMade_cancelBooking hids (booking?_mem hb).1 (reaches_canceled ?_)
            cases h : b.status <;> simp_all [BookingStatus.seated, BookingStatus.open]

/-- The live bookings of a session, canceled one after another. -/
theorem noneMade_cancelEach (xs : List SeatBooking)
    (h : ∀ b ∈ xs, ∀ c ∈ db.bookings, c.id = b.id → c.status.reaches .canceled = true) :
    NoneMade db (xs.foldl (fun db b => (db.dropDeposit b.id).setStatus b.id .canceled) db) := by
  induction xs generalizing db with
  | nil => exact .refl db
  | cons b xs ih =>
    have hcancel : NoneMade (db.dropDeposit b.id) ((db.dropDeposit b.id).setStatus b.id .canceled) :=
      noneMade_setStatus b.id .canceled fun c hc hid => h b (List.mem_cons_self ..) c hc hid
    refine ((noneMade_dropDeposit b.id).trans hcancel).trans (ih fun d hd c hc hid => ?_)
    obtain ⟨e, he, rfl⟩ := mem_amend.1 hc
    split at hid
    · next heb =>
      rw [if_pos heb]
      rfl
    · next heb =>
      rw [if_neg heb]
      exact h d (List.mem_cons_of_mem b hd) e he hid

theorem noneMade_cancelWork (member : Id) (ahead : List Id) (hids : (db.bookings.map (·.id)).Nodup) :
    NoneMade db (db.cancelWork now member ahead) := by
  have hsessions := NoneMade.foldl (f := fun (db : RosterDb) (s : VisitSlot) =>
      (((db.bookings.filter fun b => decide (b.slotId = s.id) && !b.deleted && b.status.open).foldl
        (fun db b => (db.dropDeposit b.id).setStatus b.id .canceled) db).releaseSlot s).1) (fun db s hids => ?_)
    (db.slots.filter fun s => decide (s.staffId = member) && decide (s.status = .scheduled) &&
      decide (now ≤ s.startsAt) && db.bookings.any fun b => decide (b.slotId = s.id) && !b.deleted && b.status.open)
    hids
  · refine hsessions.trans (NoneMade.foldl (fun db id _ => ?_) ahead (hsessions.unique hids))
    exact .of_bookings rfl
  · refine NoneMade.trans (noneMade_cancelEach _ fun b hb c hc hid => ?_) (noneMade_releaseSlot s)
    obtain ⟨hmem, hlive⟩ := List.mem_filter.1 hb
    obtain rfl := List.inj_on_of_nodup_map hids hc hmem hid
    rw [Bool.and_eq_true] at hlive
    exact reaches_canceled hlive.2

theorem noneMade_closePastWaitlists (midnight : Int) (held : List Id) (hids : (db.bookings.map (·.id)).Nodup) :
    NoneMade db (db.closePastWaitlists midnight held) := by
  refine NoneMade.foldl (fun db id hids => ?_) held hids
  cases hb : db.booking? id with
  | none => exact .refl db
  | some b =>
    obtain ⟨hmem, rfl, -⟩ := booking?_mem hb
    dsimp only
    split
    · next hwaits => exact (noneMade_goOn hids hmem (by rw [hwaits.1]; rfl)).trans (noneMade_dropDeposit b.id)
    · exact .refl db

theorem noneMade_closePastVisit {midnight : Int} {givenBack : Id → Bool} {id : Id}
    (hids : (db.bookings.map (·.id)).Nodup) (h : db.closePastVisit midnight givenBack id = some (db', slot)) :
    NoneMade db db' := by
  unfold RosterDb.closePastVisit at h
  cases hb : db.booking? id with
  | none =>
    rw [hb] at h
    cases h
  | some b =>
    obtain ⟨hmem, rfl, -⟩ := booking?_mem hb
    rw [hb] at h
    dsimp only at h
    cases hs : db.slot? b.slotId with
    | none =>
      rw [hs] at h
      cases h
    | some s =>
      rw [hs] at h
      dsimp only at h
      split at h
      · cases h
      · split at h
        · next hconf =>
          obtain ⟨rfl, rfl⟩ := Prod.mk.inj (Option.some.inj h)
          exact (noneMade_goOn hids hmem (by rw [hconf]; rfl)).trans (noneMade_dropDeposit b.id)
        · split at h
          · next hpending =>
            obtain ⟨rfl, rfl⟩ := Prod.mk.inj (Option.some.inj h)
            exact (noneMade_goOn hids hmem (by rw [hpending.1]; rfl)).trans (noneMade_dropDeposit b.id)
          · cases h

theorem noneMade_closeVisits (midnight : Int) (givenBack : Id → Bool) (held : List Id)
    (hids : (db.bookings.map (·.id)).Nodup) : NoneMade db (RosterDb.closeVisits midnight givenBack held db).1 := by
  induction held generalizing db with
  | nil => exact .refl db
  | cons id held ih =>
    unfold RosterDb.closeVisits
    cases h : db.closePastVisit midnight givenBack id with
    | none => exact ih hids
    | some r =>
      have hvisit := noneMade_closePastVisit hids h
      exact hvisit.trans (ih (hvisit.unique hids))

theorem noneMade_closePastVisits (midnight : Int) (givenBack : Id → Bool) (held : List Id)
    (hids : (db.bookings.map (·.id)).Nodup) : NoneMade db (db.closePastVisits midnight givenBack held) := by
  have hvisits := noneMade_closeVisits midnight givenBack held hids
  refine hvisits.trans (NoneMade.foldl (fun db slot _ => ?_) _ (hvisits.unique hids))
  dsimp only
  split
  · exact (noneMade_releaseSlot slot).trans (noneMade_completeWhenDone _)
  · exact noneMade_releaseSlot slot

theorem noneMade_completeVisit (id : Id) (hids : (db.bookings.map (·.id)).Nodup) :
    NoneMade db (db.completeVisit now id) := by
  unfold RosterDb.completeVisit
  cases hb : db.booking? id with
  | none => exact .refl db
  | some b =>
    obtain ⟨hmem, rfl, -⟩ := booking?_mem hb
    dsimp only
    cases hs : db.slot? b.slotId with
    | none => exact .refl db
    | some slot =>
      dsimp only
      split
      · exact .refl db
      · next hnot =>
        have hconf : b.status = .confirmed := by
          by_contra hne
          exact hnot (.inl hne)
        exact ((noneMade_goOn hids hmem (by rw [hconf]; rfl)).trans (noneMade_dropDeposit b.id)).trans
          (noneMade_completeWhenDone slot)

theorem noneMade_runAct {id : Id} {action : RosterAction} (hids : (db.bookings.map (·.id)).Nodup)
    (hok : db.runAct now slot id action = .ok db') : NoneMade db db' := by
  unfold RosterDb.runAct at hok
  cases hb : db.booking? id with
  | none =>
    rw [hb] at hok
    cases hok
  | some b =>
    obtain ⟨hmem, rfl, -⟩ := booking?_mem hb
    rw [hb] at hok
    cases action with
    | checkIn =>
      dsimp only at hok
      split at hok
      · cases hok
      · obtain rfl := Except.ok.inj hok
        exact .of_bookings rfl
    | undo =>
      dsimp only at hok
      split at hok
      · obtain rfl := Except.ok.inj hok
        exact .of_bookings rfl
      · split at hok
        · next hnoShow =>
          obtain rfl := Except.ok.inj hok
          exact noneMade_goOn hids hmem (by rw [hnoShow.1]; rfl)
        · cases hok
    | noShow =>
      dsimp only at hok
      split at hok
      · cases hok
      · next hconf =>
        obtain rfl := Except.ok.inj hok
        have hmark : NoneMade db (db.setStatus b.id .noShow) :=
          noneMade_goOn hids hmem (by rw [not_not.1 hconf]; rfl)
        have hfacts : NoneMade db ((db.setStatus b.id .noShow).setFacts b.id fun x => { x with checkedIn := false }) :=
          hmark.trans (.of_bookings rfl)
        exact hfacts.trans (noneMade_fillFreedSeats (hfacts.unique hids))
    | seat =>
      dsimp only at hok
      split at hok
      · cases hok
      · next hwaits =>
        split at hok
        · cases hok
        · obtain rfl := Except.ok.inj hok
          exact (noneMade_goOn hids hmem (by rw [not_not.1 hwaits]; rfl)).trans (.of_bookings rfl)

theorem noneMade_runPatch {id : Id} {before : BookingStatus} {status : PatchedStatus}
    (hids : (db.bookings.map (·.id)).Nodup) (hok : db.runPatch now slot id before status = .ok db') :
    NoneMade db db' := by
  unfold RosterDb.runPatch at hok
  split at hok
  · obtain rfl := Except.ok.inj hok
    exact .refl db
  · cases hb : db.booking? id with
    | none =>
      rw [hb] at hok
      cases hok
    | some b =>
      obtain ⟨hmem, rfl, -⟩ := booking?_mem hb
      rw [hb] at hok
      dsimp only at hok
      split at hok
      · obtain rfl := Except.ok.inj hok
        exact .refl db
      · split at hok
        · cases hok
        · next hterminal =>
          have hstatus := reaches_patched hterminal
          have hgo : NoneMade db (db.setStatus b.id status.status) := noneMade_goOn hids hmem (hstatus status)
          cases status with
          | confirmed =>
            obtain rfl := Except.ok.inj hok
            exact hgo
          | completed =>
            obtain rfl := Except.ok.inj hok
            exact (hgo.trans (noneMade_dropDeposit b.id)).trans (noneMade_completeWhenDone slot)
          | canceled =>
            obtain rfl := Except.ok.inj hok
            exact noneMade_cancelBooking hids hmem (hstatus .canceled)
          | noShow =>
            obtain rfl := Except.ok.inj hok
            split
            · exact hgo.trans (noneMade_fillFreedSeats (hgo.unique hids))
            · exact hgo

end

/-! ## Bookings made -/

section
variable {db db' : RosterDb} {who : Holder} {now : Int} {slot : VisitSlot} {new : NewBooking}

def NewBooking.holder (new : NewBooking) : Holder := holderOf new.clientId new.subjectId

theorem runAdd_made (hok : db.runAdd slot new = .ok db') : ∃ b, db'.bookings = db.bookings ++ [b] ∧
    b.holder = new.holder ∧ db.hasSeat b.slotId new.clientId new.subjectId = false := by
  unfold RosterDb.runAdd at hok
  split at hok
  · cases hok
  · next hseat =>
    obtain rfl := Except.ok.inj hok
    exact ⟨_, rfl, rfl, Bool.not_eq_true _ ▸ hseat⟩

theorem runJoin_made (hok : db.runJoin slot new = .ok db') : ∃ b, db'.bookings = db.bookings ++ [b] ∧
    b.holder = new.holder ∧ db.hasSeat b.slotId new.clientId new.subjectId = false := by
  unfold RosterDb.runJoin at hok
  split at hok
  · cases hok
  · split at hok
    · cases hok
    · next hseat =>
      obtain rfl := Except.ok.inj hok
      exact ⟨_, rfl, rfl, Bool.not_eq_true _ ▸ hseat⟩

/-- The booking made: on a session joined, which was asked about where it is online, or on a slot laid for it. -/
theorem bookVisit_made {item : ServiceItem} {staffId slotId : Id} {startsAt : Int} {dedupe : Bool} {extraMin : Nat}
    {chosen : Option Id} (hfresh : new.id ∉ db.bookings.map (·.id))
    (hok : db.bookVisit item staffId startsAt new dedupe extraMin chosen slotId = .ok db') :
    ∃ b, db'.bookings = db.bookings ++ [b] ∧ b.holder = new.holder ∧
      ((dedupe = true → db.hasSeat b.slotId new.clientId new.subjectId = false) ∨ b.slotId = slotId) := by
  unfold RosterDb.bookVisit at hok
  cases hcore : db.createBookingCore item staffId startsAt new.clientId new.subjectId dedupe extraMin chosen slotId
      new.id new.createdAt with
  | error e =>
    rw [hcore] at hok
    cases hok
  | ok r =>
    rw [hcore] at hok
    obtain ⟨schedule, b, laid⟩ := r
    obtain ⟨slot', hb, hr⟩ := createBookingCore_ok hcore
    dsimp only at hok hb hr
    obtain rfl := Except.ok.inj hok
    have hbookings : schedule.bookings = db.bookings ++ [b] := by
      rcases hr with ⟨-, -, -, rfl⟩ | ⟨-, -, -, rfl⟩ <;> rfl
    have hplace : (dedupe = true → db.hasSeat b.slotId new.clientId new.subjectId = false) ∨ b.slotId = slotId := by
      rw [hb]
      rcases hr with ⟨-, -, hasked, -⟩ | ⟨hlaid, -⟩
      · exact .inl hasked
      · exact .inr hlaid
    have hholder : b.holder = new.holder := by
      rw [hb]
      rfl
    split
    · -- a new client's waits for its answer
      have hid : b.id ∉ db.bookings.map (·.id) := by rwa [hb]
      refine ⟨{ b with status := .pending }, ?_, hholder, hplace⟩
      show amend (·.id) b.id (fun b => { b with status := .pending }) schedule.bookings = _
      have hrest : amend (·.id) b.id (fun b : SeatBooking => { b with status := .pending }) db.bookings = db.bookings :=
        amend_of_absent hid
      unfold amend at hrest ⊢
      rw [hbookings, List.map_append, hrest, List.map_singleton, if_pos rfl]
    · exact ⟨b, hbookings, hholder, hplace⟩

end

/-! ## Runs -/

/-- Any step but a booking made for `who` at the desk, where nobody asks whether they are in the session already. -/
inductive AskedStep {π : Type} (who : Holder) (p : π) (s : RosterStore) :
    RosterPlace → RosterStore → RosterPlace → Prop
  | book {item : ServiceItem} {staffId slotId : Id} {startsAt : Int} {new : NewBooking} {dedupe : Bool}
      {extraMin : Nat} {chosen : Option Id} {db : RosterDb} (hasked : new.holder = who → dedupe = true)
      (hfresh : new.id ∉ s.db.bookings.map (·.id)) (hnew : slotId ∉ s.db.slots.map (·.id))
      (hok : s.db.bookVisit item staffId startsAt new dedupe extraMin chosen slotId = .ok db) :
      AskedStep who p s .idle { s with db := db } .idle
  | other {x x' : RosterPlace} {s' : RosterStore} (h : RosterStep p s x s' x')
      (hnone : x ≠ .idle ∨ s'.db.bookings.length = s.db.bookings.length) : AskedStep who p s x s' x'

section
variable {π : Type} {who : Holder} {p : π} {s s' : RosterStore} {x x' : RosterPlace}

theorem AskedStep.roster (h : AskedStep who p s x s' x') : RosterStep p s x s' x' := by
  cases h with
  | book _ hfresh hnew hok => exact .book hfresh hnew hok
  | other h => exact h

/-- A step makes no booking, or one: at the desk or online, or, after its request asked, on the roster or a waitlist. -/
theorem RosterStep.made (h : RosterStep p s x s' x') (hrows : RosterRows s.db) : NoneMade s.db s'.db ∨
    ∃ b, s'.db.bookings = s.db.bookings ++ [b] ∧ (x = .idle ∨ ∃ new : NewBooking, b.holder = new.holder ∧
      s.db.hasSeat b.slotId new.clientId new.subjectId = false) := by
  have hids := hrows.bookingIds
  cases h with
  | book hfresh _ hok =>
    obtain ⟨b, hbookings, -⟩ := bookVisit_made hfresh hok
    exact .inr ⟨b, hbookings, .inl rfl⟩
  | runAdd _ _ hok =>
    obtain ⟨b, hbookings, hasked⟩ := runAdd_made hok
    exact .inr ⟨b, hbookings, .inr ⟨_, hasked⟩⟩
  | runJoin _ _ hok =>
    obtain ⟨b, hbookings, hasked⟩ := runJoin_made hok
    exact .inr ⟨b, hbookings, .inr ⟨_, hasked⟩⟩
  | runAct _ hok => exact .inl (noneMade_runAct hids hok)
  | runPatch _ hok => exact .inl (noneMade_runPatch hids hok)
  | cancelOnline hok => exact .inl (noneMade_cancelOnline hids hok)
  | runSeries _ => exact .inl (noneMade_cancelSeated _ hids)
  | reap released => exact .inl (noneMade_cancelSeated _ hids)
  | cancelWork member ahead => exact .inl (noneMade_cancelWork member ahead hids)
  | closeWaitlists _ held => exact .inl (noneMade_closePastWaitlists _ held hids)
  | closeVisits _ givenBack held => exact .inl (noneMade_closePastVisits _ givenBack held hids)
  | complete id => exact .inl (noneMade_completeVisit id hids)
  | _ => exact .inl (.of_bookings rfl)

theorem AskedStep.onePlace (h : AskedStep who p s x s' x') (hrows : RosterRows s.db) (hone : OnePlace who s.db) :
    OnePlace who s'.db := by
  cases h with
  | @book item staffId slotId startsAt new dedupe extraMin chosen db hasked hfresh hnew hok =>
    obtain ⟨b, hbookings, hholder, hplace⟩ := bookVisit_made hfresh hok
    refine hone.append hbookings fun hwho c hc hslot hstands => ?_
    have hnewWho := hholder.symm.trans hwho
    rcases hplace with hseat | hlaid
    · rw [← hnewWho]
      exact unseated (hseat (hasked hnewWho)) c hc hslot hstands
    · -- nobody is on a slot laid for the booking
      obtain ⟨t, ht, htid⟩ := hrows.placed c hc
      refine absurd ?_ hnew
      rw [← hlaid, ← hslot, ← htid]
      exact List.mem_map_of_mem ht
  | other h hnone =>
    rcases h.made hrows with hmade | ⟨b, hbookings, hidle | ⟨new, hholder, hseat⟩⟩
    · exact hone.noneMade hmade
    · have hmore := congrArg List.length hbookings
      rw [List.length_append, List.length_singleton] at hmore
      have hsame := hnone.resolve_left fun hne => hne hidle
      omega
    · refine hone.append hbookings fun hwho c hc hslot hstands hcwho => ?_
      exact unseated hseat c hc hslot hstands (hcwho.trans (hwho.symm.trans hholder))

theorem askedKept (π : Type) (who : Holder) :
    Kept (@AskedStep π who) (fun s => RosterOk s.db s.now none ∧ OnePlace who s.db) fun _ => PlaceOk where
  store h hI hJ := ⟨(rosterKept π).store h.roster hI.1 hJ, h.onePlace hI.1.toRosterRows hI.2⟩
  own h hI hJ := (rosterKept π).own h.roster hI.1 hJ
  others h hne hI hJ hq := (rosterKept π).others h.roster hne hI.1 hJ hq

/-- The bookings there are stay, and only go on. -/
theorem RosterStep.goesOn (h : RosterStep p s x s' x') (hrows : RosterRows s.db) {b : SeatBooking}
    (hb : b ∈ s.db.bookings) : ∃ b' ∈ s'.db.bookings, b'.id = b.id ∧ b.status.reaches b'.status = true := by
  rcases h.made hrows with hmade | ⟨c, hbookings, -⟩
  · have hmem : b.id ∈ s'.db.bookings.map (·.id) := by
      rw [hmade.ids]
      exact List.mem_map_of_mem hb
    obtain ⟨b', hb', hid⟩ := List.mem_map.1 hmem
    obtain ⟨c, hc, hcid, -, -, -, hstatus⟩ := hmade.goesOn b' hb'
    obtain rfl := hrows.booking_eq hc hb (hcid.trans hid)
    exact ⟨b', hb', hid, hstatus⟩
  · exact ⟨b, hbookings ▸ List.mem_append_left _ hb, rfl, reaches_refl b.status⟩

variable [DecidableEq π] {w v w' : World π RosterStore RosterPlace} {ps qs : List π}

/-- Whoever is booked online, on the roster or for a waitlist, and never at the desk, has one place in a session at
most, seats and places in line together. -/
theorem one_place_each (hidle : ∀ p, w.place p = .idle) (hrows : RosterRows w.store.db)
    (hfair : Seated w.store.db w.store.now none) (hone : OnePlace who w.store.db)
    (hrun : Run (Interleaved (AskedStep who)) w ps w') : OnePlace who w'.store.db :=
  ((askedKept π who).run hrun ⟨⟨⟨hrows, hfair⟩, hone⟩, fun p => (hidle p).symm ▸ trivial⟩).1.2

end

/-! ## A yoga class -/

/-- Gus is put on the roster of the full class, and waits. -/
def yogaWaits : RosterDb :=
  yogaRoster.addBooking (yogaSpot "bk_6" "gus" .waitlisted 6) (.new false 0)

theorem yogaRoster_gus : OnePlace (.client "gus") yogaRoster := by
  intro b hb c hc _ _ _ hwho
  simp only [yogaRoster, List.mem_cons, List.not_mem_nil, or_false] at hb
  rcases hb with rfl | rfl | rfl | rfl | rfl <;> exact absurd hwho (by decide)

theorem yogaWaits_run : ∃ ps, Run (Interleaved (AskedStep (.client "gus")))
    ⟨⟨yogaRoster, 0⟩, fun _ : Nat => .idle⟩ ps ⟨⟨yogaWaits, 0⟩, fun _ => .idle⟩ := by
  have hread : yogaRoster.readAdd 0 "slot_1" = .ok yogaSlot := rfl
  have hadd : yogaRoster.runAdd yogaSlot yogaGus = .ok yogaWaits := rfl
  have hasks : AskedStep (.client "gus") 0 ⟨yogaRoster, 0⟩ .idle ⟨yogaRoster, 0⟩ (.adding yogaSlot yogaGus) :=
    .other (.readAdd yogaGus hread) (.inr rfl)
  have hgiven : AskedStep (.client "gus") 0 ⟨yogaRoster, 0⟩ (.adding yogaSlot yogaGus) ⟨yogaWaits, 0⟩ .idle :=
    .other (.runAdd ⟨yogaSlot, List.mem_singleton_self _, rfl, rfl⟩ (by decide) hadd) (.inl (by simp))
  have hblock : Relation.ReflTransGen (fun a b : RosterStore × RosterPlace =>
      AskedStep (.client "gus") (0 : Nat) a.1 a.2 b.1 b.2) (⟨yogaRoster, 0⟩, .idle) (⟨yogaWaits, 0⟩, .idle) :=
    (Relation.ReflTransGen.single (b := (⟨yogaRoster, 0⟩, .adding yogaSlot yogaGus)) hasks).tail hgiven
  obtain ⟨ps, hrun⟩ := Interleaved.block
    (w := (⟨⟨yogaRoster, 0⟩, fun _ => .idle⟩ : World Nat RosterStore RosterPlace)) rfl hblock
  rw [Function.update_eq_self] at hrun
  exact ⟨ps, hrun⟩

/-- Gus waits once, and is not put on the roster again. -/
theorem yoga_once : OnePlace (.client "gus") yogaWaits ∧ yogaSpot "bk_6" "gus" .waitlisted 6 ∈ yogaWaits.bookings ∧
    yogaWaits.runAdd yogaSlot { yogaGus with id := "bk_7" } = .error ⟨alreadyInClass, none⟩ := by
  obtain ⟨ps, hrun⟩ := yogaWaits_run
  exact ⟨one_place_each (fun _ => rfl) yogaRoster_rows yogaRoster_seated yogaRoster_gus hrun, by decide, rfl⟩

end ClientBridge
