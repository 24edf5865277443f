import ClientBridge.Scheduling.ClassSeats

/-!
# What a request can do to a class

Every request on a class is a sequence of a few moves (`Moves`): a seat given while none is closed, a client put on the
waitlist of a closed session, a booking canceled and its seat filled, and what leaves seats and waiters as they are.
Each keeps the rows in order and the seats fair (`RosterOk`), takes no row away (`Onward`), and while a session is ahead
lets nobody overtake anyone who waits for it (`InTurn`).
-/

namespace ClientBridge

open Calendar Runs Waitlists

/-! ## Counts -/

namespace RosterDb

/-- The seats taken on a slot. -/
def taken (db : RosterDb) (slotId : Id) : Nat := db.bookings.countP fun b => b.takes slotId

def waiting (db : RosterDb) (slotId : Id) : Nat := db.bookings.countP fun b => b.waitsFor slotId

theorem bookedCount_eq (db : RosterDb) (slotId : Id) : db.bookedCount slotId = db.taken slotId := by
  rw [ScheduleDb.bookedCount, taken, List.countP_eq_length_filter]
  rfl

theorem seatsClosed_iff (db : RosterDb) (slot : VisitSlot) :
    db.seatsClosed slot = true ↔ slot.capacity ≤ db.taken slot.id ∨ 0 < db.waiting slot.id := by
  rw [ScheduleDb.seatsClosed, Bool.or_eq_true, decide_eq_true_eq, bookedCount_eq, waiting, List.countP_pos_iff,
    List.any_eq_true]
  rfl

end RosterDb

/-- Ids are unique, a booking's slot is a row, and slots last. -/
structure RosterRows (db : RosterDb) : Prop where
  slotIds : (db.slots.map (·.id)).Nodup
  bookingIds : (db.bookings.map (·.id)).Nodup
  placed : ∀ b ∈ db.bookings, ∃ s ∈ db.slots, s.id = b.slotId
  lasts : ∀ s ∈ db.slots, s.startsAt ≤ s.endsAt

/-- A class session on its own that is still to come. -/
structure Ahead (db : RosterDb) (now : Int) (s : VisitSlot) : Prop where
  seats : 1 < s.capacity
  live : s.status ≠ .canceled
  single : db.isProgramDay s = false
  later : now < s.startsAt

/-- No session has more seats taken than it has, and while one is ahead nobody waits for it beside a free seat, unless
it is the one whose seat was just freed. -/
structure Seated (db : RosterDb) (now : Int) (freed : Option Id) : Prop where
  room : ∀ s ∈ db.slots, (db.taken s.id : Int) ≤ s.capacity
  full : ∀ s ∈ db.slots, freed ≠ some s.id → Ahead db now s → 0 < db.waiting s.id → s.capacity ≤ db.taken s.id

structure RosterOk (db : RosterDb) (now : Int) (freed : Option Id) : Prop extends RosterRows db, Seated db now freed

section
variable {db db' : RosterDb} {now : Int} {freed : Option Id} {b : SeatBooking} {x : BookingFacts} {s : VisitSlot}

theorem takes_other {i : Id} (h : b.slotId ≠ i) : b.takes i = false := by simp [SeatBooking.takes, h]

theorem waitsFor_other {i : Id} (h : b.slotId ≠ i) : b.waitsFor i = false := by simp [SeatBooking.waitsFor, h]

theorem not_takes_of_waits {i : Id} (h : b.waitsFor i = true) : b.takes i = false := (seatDesk i).not_both b h

theorem not_waits_of_takes {i : Id} (h : b.takes i = true) (j : Id) : b.waitsFor j = false := by
  simp only [SeatBooking.takes, Bool.and_eq_true, decide_eq_true_eq] at h
  simp [SeatBooking.waitsFor, h.2.2]

/-- Nobody has a place where there are no bookings. -/
theorem counts_of_absent {i : Id} (h : ∀ c ∈ db.bookings, c.slotId ≠ i) : db.taken i = 0 ∧ db.waiting i = 0 := by
  constructor
  · refine List.countP_eq_zero.2 fun c hc => ?_
    rw [takes_other (h c hc)]
    exact Bool.false_ne_true
  · refine List.countP_eq_zero.2 fun c hc => ?_
    rw [waitsFor_other (h c hc)]
    exact Bool.false_ne_true

theorem slotId_of_waitsFor {i : Id} (h : b.waitsFor i = true) : b.slotId = i := by
  simp only [SeatBooking.waitsFor, Bool.and_eq_true, decide_eq_true_eq] at h
  exact h.1.1

theorem RosterRows.row_eq (h : RosterRows db) {s t : VisitSlot} (hs : s ∈ db.slots) (ht : t ∈ db.slots)
    (he : s.id = t.id) : s = t := List.inj_on_of_nodup_map h.slotIds hs ht he

theorem RosterRows.booking_eq (h : RosterRows db) {b c : SeatBooking} (hb : b ∈ db.bookings) (hc : c ∈ db.bookings)
    (he : b.id = c.id) : b = c := List.inj_on_of_nodup_map h.bookingIds hb hc he

theorem RosterRows.turns (h : RosterRows db) : (db.bookings.map SeatBooking.turn).Nodup := by
  refine (List.nodup_map_iff_inj_on (List.Nodup.of_map _ h.bookingIds)).2 fun b hb c hc he => ?_
  exact h.booking_eq hb hc (Prod.mk.inj (toLex_inj.1 he)).2

/-- Two databases whose slots and services are the same agree on what is ahead. -/
theorem Ahead.congr (h : Ahead db' now s) (hitems : db'.items = db.items) (hlaid : db'.laid = db.laid) :
    Ahead db now s := by
  refine ⟨h.seats, h.live, ?_, h.later⟩
  have hsingle := h.single
  unfold RosterDb.isProgramDay ScheduleDb.item? at hsingle ⊢
  rwa [hitems, hlaid] at hsingle

/-- The seats of one slot change. -/
theorem Seated.change (h : Seated db now freed) {i : Id} {freed' : Option Id} (hslots : db'.slots = db.slots)
    (hitems : db'.items = db.items) (hlaid : db'.laid = db.laid)
    (hothers : ∀ j, j ≠ i → db'.taken j = db.taken j ∧ db'.waiting j = db.waiting j)
    (hroom : ∀ s ∈ db.slots, s.id = i → (db'.taken i : Int) ≤ s.capacity)
    (hfull : ∀ s ∈ db.slots, s.id = i → freed' ≠ some i → Ahead db now s → 0 < db'.waiting i →
      s.capacity ≤ db'.taken i)
    (hfreed : ∀ j, j ≠ i → freed' ≠ some j → freed ≠ some j) : Seated db' now freed' := by
  constructor
  · intro s hs
    rw [hslots] at hs
    by_cases hi : s.id = i
    · rw [hi]
      exact hroom s hs hi
    · rw [(hothers s.id hi).1]
      exact h.room s hs
  · intro s hs hne hahead hwait
    rw [hslots] at hs
    have hahead' := hahead.congr hitems hlaid
    by_cases hi : s.id = i
    · rw [hi] at hne hwait ⊢
      exact hfull s hs hi hne hahead' hwait
    · rw [(hothers s.id hi).1]
      rw [(hothers s.id hi).2] at hwait
      exact h.full s hs (hfreed s.id hi hne) hahead' hwait

end

/-! ## Moves -/

/-- The rows stay, and nobody is put in line who was not: a slot keeps its window and its seats, a canceled one that is
still ahead stays canceled, and a booking keeps its slot and its turn. -/
structure Onward (now : Int) (db db' : RosterDb) : Prop where
  items : db'.items = db.items
  laid : db'.laid = db.laid
  slots : ∀ s ∈ db.slots, ∃ s' ∈ db'.slots, s'.id = s.id ∧ s'.itemId = s.itemId ∧ s'.capacity = s.capacity ∧
    s'.startsAt = s.startsAt ∧ (now < s.startsAt → s.status = .canceled → s'.status = .canceled)
  bookings : ∀ b ∈ db.bookings, ∃ b' ∈ db'.bookings, b'.id = b.id ∧ b'.slotId = b.slotId ∧ b'.turn = b.turn ∧
    b'.deleted = b.deleted ∧ (b'.status = .waitlisted → b.status = .waitlisted)

/-- Two bookings in the order of their turns, the later not seated while the earlier waits. -/
def InTurn (db : RosterDb) (slotId i j : Id) : Prop :=
  ∃ a ∈ db.bookings, ∃ b ∈ db.bookings, a.id = i ∧ b.id = j ∧ a.turn < b.turn ∧
    (b.takes slotId = true → a.waitsFor slotId = false)

/-- What one step of a request does, from rows that are in order to rows that are. -/
structure MovesTo (now : Int) (freed' : Option Id) (db db' : RosterDb) : Prop where
  ok : RosterOk db' now freed'
  onward : Onward now db db'
  inTurn : ∀ s ∈ db.slots, ∀ s' ∈ db'.slots, s'.id = s.id → Ahead db' now s' → ∀ i j, InTurn db s.id i j →
    InTurn db' s.id i j

def Moves (now : Int) (freed freed' : Option Id) (db db' : RosterDb) : Prop :=
  RosterOk db now freed → MovesTo now freed' db db'

section
variable {db db' db'' : RosterDb} {now : Int} {freed freed' freed'' : Option Id} {s : VisitSlot}

theorem Onward.refl (now : Int) (db : RosterDb) : Onward now db db :=
  ⟨rfl, rfl, fun s hs => ⟨s, hs, rfl, rfl, rfl, rfl, fun _ h => h⟩, fun b hb => ⟨b, hb, rfl, rfl, rfl, rfl, id⟩⟩

theorem Onward.trans (h : Onward now db db') (h' : Onward now db' db'') : Onward now db db'' := by
  refine ⟨h'.items.trans h.items, h'.laid.trans h.laid, fun s hs => ?_, fun b hb => ?_⟩
  · obtain ⟨s', hs', hid, hitem, hcap, hstart, hcanceled⟩ := h.slots s hs
    obtain ⟨s'', hs'', hid', hitem', hcap', hstart', hcanceled'⟩ := h'.slots s' hs'
    exact ⟨s'', hs'', hid'.trans hid, hitem'.trans hitem, hcap'.trans hcap, hstart'.trans hstart,
      fun hlater hc => hcanceled' (hstart ▸ hlater) (hcanceled hlater hc)⟩
  · obtain ⟨b', hb', hid, hslot, hturn, hdel, hwait⟩ := h.bookings b hb
    obtain ⟨b'', hb'', hid', hslot', hturn', hdel', hwait'⟩ := h'.bookings b' hb'
    exact ⟨b'', hb'', hid'.trans hid, hslot'.trans hslot, hturn'.trans hturn, hdel'.trans hdel,
      fun hw => hwait (hwait' hw)⟩

/-- A session ahead was ahead before. -/
theorem Onward.ahead (h : Onward now db db') (hrows : RosterRows db') {s s' : VisitSlot} (hs : s ∈ db.slots)
    (hs' : s' ∈ db'.slots) (hid : s'.id = s.id) (hahead : Ahead db' now s') : Ahead db now s := by
  obtain ⟨t, ht, htid, hitem, hcap, hstart, hcanceled⟩ := h.slots s hs
  obtain rfl := hrows.row_eq ht hs' (htid.trans hid.symm)
  refine ⟨hcap ▸ hahead.seats, fun hc => hahead.live (hcanceled (hstart ▸ hahead.later) hc), ?_, hstart ▸ hahead.later⟩
  have hsingle := hahead.single
  unfold RosterDb.isProgramDay ScheduleDb.item? at hsingle ⊢
  rwa [h.items, h.laid, hitem, htid] at hsingle

theorem Moves.refl (now : Int) (freed : Option Id) (db : RosterDb) : Moves now freed freed db db :=
  fun h => ⟨h, .refl now db, fun _ _ _ _ _ _ _ _ h => h⟩

theorem MovesTo.trans (h1 : MovesTo now freed' db db') (h2 : MovesTo now freed'' db' db'') :
    MovesTo now freed'' db db'' := by
  refine ⟨h2.ok, h1.onward.trans h2.onward, fun s hs s'' hs'' hid hahead i j hin => ?_⟩
  obtain ⟨s', hs', hid', -⟩ := h1.onward.slots s hs
  have hahead' := h2.onward.ahead h2.ok.toRosterRows hs' hs'' (hid.trans hid'.symm) hahead
  have hin' := h1.inTurn s hs s' hs' hid' hahead' i j hin
  rw [← hid'] at hin' ⊢
  exact h2.inTurn s' hs' s'' hs'' (hid.trans hid'.symm) hahead i j hin'

theorem Moves.trans (h : Moves now freed freed' db db') (h' : Moves now freed' freed'' db' db'') :
    Moves now freed freed'' db db'' := fun hok => (h hok).trans (h' (h hok).ok)

/-- Nobody is seated who was not, and rows keep their order. -/
theorem InTurn.keep {i j slotId : Id} (h : InTurn db slotId i j) (ho : Onward now db db')
    (hseat : ∀ a ∈ db.bookings, ∀ b ∈ db.bookings, ∀ a' ∈ db'.bookings, ∀ b' ∈ db'.bookings, a'.id = a.id →
      b'.id = b.id → a.turn < b.turn → a.waitsFor slotId = true → a'.waitsFor slotId = true →
      b.takes slotId = false → b'.takes slotId = false) : InTurn db' slotId i j := by
  obtain ⟨a, ha, b, hb, hai, hbj, hturn, hfair⟩ := h
  obtain ⟨a', ha', haid, haslot, haturn, hadel, hawait⟩ := ho.bookings a ha
  obtain ⟨b', hb', hbid, hbslot, hbturn, hbdel, hbwait⟩ := ho.bookings b hb
  refine ⟨a', ha', b', hb', haid.trans hai, hbid.trans hbj, by rwa [haturn, hbturn], fun htakes => ?_⟩
  by_contra hw
  rw [Bool.not_eq_false] at hw
  have hwas : a.waitsFor slotId = true := by
    simp only [SeatBooking.waitsFor, Bool.and_eq_true, decide_eq_true_eq, haslot, hadel] at hw ⊢
    exact ⟨hw.1, hawait hw.2⟩
  have hnot : b.takes slotId = false := by
    cases ht : b.takes slotId with
    | false => rfl
    | true =>
      rw [hfair ht] at hwas
      cases hwas
  rw [hseat a ha b hb a' ha' b' hb' haid hbid hturn hwas hw hnot] at htakes
  cases htakes

end

/-! ### One row -/

section
variable {db db' : RosterDb} {now : Int} {freed freed' : Option Id} {s : VisitSlot} {b : SeatBooking}

/-- What is said of a booking besides its row. -/
theorem moves_facts (id : Id) (f : BookingFacts → BookingFacts) : Moves now freed freed db (db.setFacts id f) :=
  fun h => ⟨⟨⟨h.slotIds, h.bookingIds, h.placed, h.lasts⟩,
    ⟨h.room, fun s hs hne ha => h.full s hs hne (ha.congr rfl rfl)⟩⟩,
    ⟨rfl, rfl, (Onward.refl now db).slots, (Onward.refl now db).bookings⟩, fun _ _ _ _ _ _ _ _ h => h⟩

theorem moves_dropDeposit (id : Id) : Moves now freed freed db (db.dropDeposit id) := moves_facts id _

/-- The status of one booking. -/
theorem setStatus_rows (h : RosterRows db) (id : Id) (status : BookingStatus) :
    RosterRows (db.setStatus id status) := by
  have hids : (db.setStatus id status).bookings.map (·.id) = db.bookings.map (·.id) := map_amend _ fun _ _ _ => rfl
  refine ⟨h.slotIds, hids ▸ h.bookingIds, fun b hb => ?_, h.lasts⟩
  obtain ⟨c, hc, rfl⟩ := mem_amend.1 hb
  obtain ⟨s, hs, he⟩ := h.placed c hc
  refine ⟨s, hs, he.trans ?_⟩
  split <;> rfl

theorem setStatus_onward (h : RosterRows db) (hb : b ∈ db.bookings) {status : BookingStatus}
    (hwait : status = .waitlisted → b.status = .waitlisted) : Onward now db (db.setStatus b.id status) := by
  refine ⟨rfl, rfl, (Onward.refl now db).slots, fun c hc => ⟨_, mem_amend.2 ⟨c, hc, rfl⟩, ?_⟩⟩
  split
  · next hid =>
    obtain rfl := h.booking_eq hc hb hid
    exact ⟨rfl, rfl, rfl, rfl, hwait⟩
  · exact ⟨rfl, rfl, rfl, rfl, id⟩

theorem setStatus_counts (h : RosterRows db) (hb : b ∈ db.bookings) (status : BookingStatus) (i : Id) :
    (db.setStatus b.id status).taken i + (b.takes i).toNat =
        db.taken i + (({ b with status := status } : SeatBooking).takes i).toNat ∧
      (db.setStatus b.id status).waiting i + (b.waitsFor i).toNat =
        db.waiting i + (({ b with status := status } : SeatBooking).waitsFor i).toNat :=
  ⟨countP_amend _ h.bookingIds hb rfl, countP_amend _ h.bookingIds hb rfl⟩

theorem setStatus_others (h : RosterRows db) (hb : b ∈ db.bookings) (status : BookingStatus) {i : Id}
    (hi : i ≠ b.slotId) : (db.setStatus b.id status).taken i = db.taken i ∧
      (db.setStatus b.id status).waiting i = db.waiting i := by
  obtain ⟨htaken, hwaits⟩ := setStatus_counts h hb status i
  rw [takes_other (Ne.symm hi), takes_other (b := { b with status := status }) (Ne.symm hi)] at htaken
  rw [waitsFor_other (Ne.symm hi), waitsFor_other (b := { b with status := status }) (Ne.symm hi)] at hwaits
  exact ⟨htaken, hwaits⟩

theorem setStatus_row (h : RosterRows db) (hb : b ∈ db.bookings) {status : BookingStatus} {c c' : SeatBooking}
    (hc : c ∈ db.bookings) (hc' : c' ∈ (db.setStatus b.id status).bookings) (hid : c'.id = c.id) :
    c' = c ∧ c ≠ b ∨ c' = { b with status := status } ∧ c = b := by
  obtain ⟨d, hd, rfl⟩ := mem_amend.1 hc'
  by_cases hdb : d.id = b.id
  · rw [if_pos hdb] at hid ⊢
    obtain rfl := h.booking_eq hd hb hdb
    obtain rfl := h.booking_eq hd hc hid
    exact .inr ⟨rfl, rfl⟩
  · rw [if_neg hdb] at hid ⊢
    obtain rfl := h.booking_eq hd hc hid
    exact .inl ⟨rfl, fun he => hdb (congrArg (·.id) he)⟩

/-- A booking keeps its seat, or its place in line. -/
theorem moves_keep (hb : b ∈ db.bookings) {status : BookingStatus}
    (htakes : ∀ i, ({ b with status := status } : SeatBooking).takes i = b.takes i)
    (hwaits : ∀ i, ({ b with status := status } : SeatBooking).waitsFor i = b.waitsFor i)
    (hwait : status = .waitlisted → b.status = .waitlisted) :
    Moves now freed freed db (db.setStatus b.id status) := by
  intro h
  have hrows := h.toRosterRows
  have hcounts : ∀ i, (db.setStatus b.id status).taken i = db.taken i ∧
      (db.setStatus b.id status).waiting i = db.waiting i := by
    intro i
    obtain ⟨h1, h2⟩ := setStatus_counts hrows hb status i
    rw [htakes] at h1
    rw [hwaits] at h2
    omega
  have ho : Onward now db (db.setStatus b.id status) := setStatus_onward hrows hb hwait
  refine ⟨⟨setStatus_rows hrows b.id status, ?_⟩, ho, fun s _ _ _ _ _ i j hin => hin.keep ho ?_⟩
  · refine h.toSeated.change (i := b.slotId) rfl rfl rfl (fun j _ => hcounts j) ?_ ?_ fun j _ hj => hj
    · intro s hs hi
      rw [(hcounts _).1, ← hi]
      exact h.room s hs
    · intro s hs hi hne hahead hw
      rw [(hcounts _).2] at hw
      rw [(hcounts _).1]
      rw [← hi] at hne hw ⊢
      exact h.full s hs hne hahead hw
  · intro _ _ c hc _ _ c' hc' _ hid _ _ _ hnot
    rcases setStatus_row hrows hb hc hc' hid with ⟨rfl, -⟩ | ⟨rfl, rfl⟩
    · exact hnot
    · rw [htakes]
      exact hnot

theorem takes_canceled (b : SeatBooking) (i : Id) :
    ({ b with status := .canceled } : SeatBooking).takes i = false := by simp [SeatBooking.takes]

theorem waitsFor_canceled (b : SeatBooking) (i : Id) :
    ({ b with status := .canceled } : SeatBooking).waitsFor i = false := by simp [SeatBooking.waitsFor]

/-- A booking is canceled: the seat it had is free, unless its session is not ahead. -/
theorem moves_cancel (hb : b ∈ db.bookings) (hfreed : ∀ j, freed' ≠ some j → freed ≠ some j)
    (hseat : b.takes b.slotId = true → freed' = some b.slotId ∨ ∀ s ∈ db.slots, s.id = b.slotId → ¬Ahead db now s) :
    Moves now freed freed' db (db.setStatus b.id .canceled) := by
  intro h
  have hrows := h.toRosterRows
  have ho : Onward now db (db.setStatus b.id .canceled) :=
    setStatus_onward hrows hb fun hw => by cases hw
  obtain ⟨htaken, hwaits⟩ := setStatus_counts hrows hb .canceled b.slotId
  rw [takes_canceled] at htaken
  rw [waitsFor_canceled] at hwaits
  simp only [Bool.toNat_false, Nat.add_zero] at htaken hwaits
  refine ⟨⟨setStatus_rows hrows b.id .canceled, ?_⟩, ho, fun s _ _ _ _ _ i j hin => hin.keep ho ?_⟩
  · refine h.toSeated.change (i := b.slotId) rfl rfl rfl (fun j hj => setStatus_others hrows hb .canceled hj) ?_ ?_
      fun j _ => hfreed j
    · intro s hs hi
      have hroom := h.room s hs
      rw [hi] at hroom
      omega
    · intro s hs hi hne hahead hw
      cases ht : b.takes b.slotId with
      | true =>
        rcases hseat ht with he | hover
        · exact absurd he hne
        · exact absurd hahead (hover s hs hi)
      | false =>
        rw [ht, Bool.toNat_false, Nat.add_zero] at htaken
        have hfull := h.full s hs (hi.symm ▸ hfreed _ hne) hahead
        rw [hi] at hfull
        rw [htaken]
        exact hfull (by omega)
  · intro _ _ c hc _ _ c' hc' _ hid _ _ _ hnot
    rcases setStatus_row hrows hb hc hc' hid with ⟨rfl, -⟩ | ⟨rfl, rfl⟩
    · exact hnot
    · exact takes_canceled _ _

/-- A client who waits is given a seat that is free. -/
theorem moves_promote (hb : b ∈ db.bookings) (hw : b.waitsFor b.slotId = true)
    (hroom : ∀ s ∈ db.slots, s.id = b.slotId → (db.taken b.slotId : Int) < s.capacity) :
    Moves now none none db (db.setStatus b.id .confirmed) := by
  intro h
  have hrows := h.toRosterRows
  have ho : Onward now db (db.setStatus b.id .confirmed) :=
    setStatus_onward hrows hb fun hw => by cases hw
  obtain ⟨htaken, hwaits⟩ := setStatus_counts hrows hb .confirmed b.slotId
  have hseated : ({ b with status := .confirmed } : SeatBooking).takes b.slotId = true :=
    (seatDesk b.slotId).taken_seat b hw
  have hnotwaits : ({ b with status := .confirmed } : SeatBooking).waitsFor b.slotId = false :=
    (seatDesk b.slotId).waits_seat b
  rw [not_takes_of_waits hw, hseated] at htaken
  rw [hw, hnotwaits] at hwaits
  simp only [Bool.toNat_false, Bool.toNat_true, Nat.add_zero] at htaken hwaits
  -- while the session is ahead nobody waits beside a free seat
  have hover : ∀ s ∈ db.slots, s.id = b.slotId → ¬Ahead db now s := by
    intro s hs hi hahead
    have hfull := h.full s hs (by simp) hahead
    rw [hi] at hfull
    have hlt := hroom s hs hi
    have hle := hfull (by omega)
    omega
  refine ⟨⟨setStatus_rows hrows b.id .confirmed, ?_⟩, ho, fun s hs s' hs' hid hahead i j hin => hin.keep ho ?_⟩
  · refine h.toSeated.change (i := b.slotId) rfl rfl rfl (fun j hj => setStatus_others hrows hb .confirmed hj) ?_ ?_
      fun j _ => id
    · intro s hs hi
      have hlt := hroom s hs hi
      omega
    · intro s hs hi _ hahead _
      exact absurd hahead (hover s hs hi)
  · intro _ _ c hc _ _ c' hc' _ hidc _ _ _ hnot
    rcases setStatus_row hrows hb hc hc' hidc with ⟨rfl, -⟩ | ⟨rfl, rfl⟩
    · exact hnot
    · by_cases hi : s.id = c.slotId
      · exact absurd (ho.ahead (setStatus_rows hrows c.id .confirmed) hs hs' hid hahead) (hover s hs hi)
      · exact takes_other (Ne.symm hi)

end

/-! ### Slots, and bookings made -/

section
variable {db db' : RosterDb} {now : Int} {freed freed' : Option Id} {s : VisitSlot} {b : SeatBooking} {x : BookingFacts}

/-- A slot keeps its window and its seats. -/
theorem moves_slot (id : Id) (f : VisitSlot → VisitSlot)
    (hsame : ∀ s, (f s).id = s.id ∧ (f s).itemId = s.itemId ∧ (f s).capacity = s.capacity ∧
      (f s).startsAt = s.startsAt ∧ (f s).endsAt = s.endsAt)
    (hlive : ∀ s ∈ db.slots, s.id = id → now < s.startsAt → s.status = .canceled → (f s).status = .canceled) :
    Moves now freed freed db { db with slots := amend (·.id) id f db.slots } := by
  intro h
  have hids : (amend (·.id) id f db.slots).map (·.id) = db.slots.map (·.id) := map_amend _ fun s _ _ => (hsame s).1
  have hback : ∀ s' ∈ amend (·.id) id f db.slots, ∃ s ∈ db.slots, s'.id = s.id ∧ s'.itemId = s.itemId ∧
      s'.capacity = s.capacity ∧ s'.startsAt = s.startsAt ∧ s'.endsAt = s.endsAt ∧
      (now < s.startsAt → s.status = .canceled → s'.status = .canceled) := by
    intro s' hs'
    obtain ⟨s, hs, rfl⟩ := mem_amend.1 hs'
    refine ⟨s, hs, ?_⟩
    split
    · next hi =>
      obtain ⟨h1, h2, h3, h4, h5⟩ := hsame s
      exact ⟨h1, h2, h3, h4, h5, hlive s hs hi⟩
    · exact ⟨rfl, rfl, rfl, rfl, rfl, fun _ h => h⟩
  refine ⟨⟨⟨?_, h.bookingIds, fun c hc => ?_, ?_⟩, ⟨?_, ?_⟩⟩, ⟨rfl, rfl, fun s hs => ?_,
    (Onward.refl now db).bookings⟩, fun _ _ _ _ _ _ _ _ h => h⟩
  · exact hids ▸ h.slotIds
  · obtain ⟨s, hs, he⟩ := h.placed c hc
    have hmem : s.id ∈ (amend (·.id) id f db.slots).map (·.id) := hids ▸ List.mem_map_of_mem hs
    obtain ⟨s', hs', hid⟩ := List.mem_map.1 hmem
    exact ⟨s', hs', hid.trans he⟩
  · intro s' hs'
    obtain ⟨s, hs, -, -, -, hstart, hend, -⟩ := hback s' hs'
    rw [hstart, hend]
    exact h.lasts s hs
  · intro s' hs'
    obtain ⟨s, hs, hid, -, hcap, -⟩ := hback s' hs'
    rw [hid, hcap]
    exact h.room s hs
  · intro s' hs' hne hahead hw
    obtain ⟨s, hs, hid, hitem, hcap, hstart, -, hcanceled⟩ := hback s' hs'
    rw [hid] at hne hw ⊢
    rw [hcap]
    refine h.full s hs hne ⟨hcap ▸ hahead.seats, fun hc => ?_, ?_, hstart ▸ hahead.later⟩ hw
    · exact hahead.live (hcanceled (hstart ▸ hahead.later) hc)
    · have hsingle := hahead.single
      unfold RosterDb.isProgramDay at hsingle ⊢
      rwa [hid, hitem] at hsingle
  · refine ⟨_, mem_amend.2 ⟨s, hs, rfl⟩, ?_⟩
    split
    · next hi =>
      obtain ⟨h1, h2, h3, h4, -⟩ := hsame s
      exact ⟨h1, h2, h3, h4, hlive s hs hi⟩
    · exact ⟨rfl, rfl, rfl, rfl, fun _ h => h⟩

theorem moves_cancelSlot (id : Id) : Moves now freed freed db (db.setSlotStatus id .canceled) :=
  moves_slot id _ (fun _ => ⟨rfl, rfl, rfl, rfl, rfl⟩) fun _ _ _ _ _ => rfl

theorem moves_handOver (id member : Id) : Moves now freed freed db (db.handOver id member) :=
  moves_slot id _ (fun _ => ⟨rfl, rfl, rfl, rfl, rfl⟩) fun _ _ _ _ h => h

theorem moves_releaseSlot (slot : VisitSlot) : Moves now freed freed db (db.releaseSlot slot).1 := by
  unfold RosterDb.releaseSlot
  split
  · exact .refl now freed db
  · split
    · exact .refl now freed db
    · exact moves_cancelSlot slot.id

/-- A session is completed once it has started. -/
theorem moves_completeWhenDone {slot : VisitSlot} (hstarted : ∀ s ∈ db.slots, s.id = slot.id → s.startsAt ≤ now) :
    Moves now freed freed db (db.completeWhenDone slot) := by
  unfold RosterDb.completeWhenDone
  split
  · exact .refl now freed db
  · refine moves_slot slot.id _ (fun _ => ⟨rfl, rfl, rfl, rfl, rfl⟩) fun s hs hid hlater => ?_
    have hstart := hstarted s hs hid
    omega

theorem onward_append (now : Int) (db : RosterDb) (ys : List VisitSlot) (b : SeatBooking) (f : Id → BookingFacts) :
    Onward now db { db with slots := db.slots ++ ys, bookings := db.bookings ++ [b], facts := f } :=
  ⟨rfl, rfl, fun s hs => ⟨s, List.mem_append_left _ hs, rfl, rfl, rfl, rfl, fun _ h => h⟩,
    fun c hc => ⟨c, List.mem_append_left _ hc, rfl, rfl, rfl, rfl, id⟩⟩

/-- A booking made leaves the others as they are. -/
theorem row_append (h : RosterRows db) (hfresh : b.id ∉ db.bookings.map (·.id)) {c c' : SeatBooking}
    (hc : c ∈ db.bookings) (hc' : c' ∈ db.bookings ++ [b]) (hid : c'.id = c.id) : c' = c := by
  rcases List.mem_append.1 hc' with hc' | hc'
  · exact h.booking_eq hc' hc hid
  · obtain rfl := List.mem_singleton.1 hc'
    exact absurd (hid ▸ List.mem_map_of_mem hc) hfresh

theorem append_counts (xs : List SeatBooking) (b : SeatBooking) (i : Id) :
    ((xs ++ [b]).countP fun c => c.takes i) = (xs.countP fun c => c.takes i) + (b.takes i).toNat ∧
      ((xs ++ [b]).countP fun c => c.waitsFor i) = (xs.countP fun c => c.waitsFor i) + (b.waitsFor i).toNat := by
  rw [List.countP_append, List.countP_append, List.countP_singleton, List.countP_singleton]
  cases b.takes i <;> cases b.waitsFor i <;> exact ⟨rfl, rfl⟩

theorem ids_append {β : Type} {key : β → Id} {xs : List β} {x : β} (h : (xs.map key).Nodup)
    (hx : key x ∉ xs.map key) : ((xs ++ [x]).map key).Nodup := by
  rw [List.map_append]
  refine List.nodup_append.2 ⟨h, List.nodup_singleton _, fun i hi j hj => ?_⟩
  obtain rfl := List.mem_singleton.1 hj
  exact fun he => hx ((show i = key x from he) ▸ hi)

/-- A booking takes a seat while none is closed, or joins the line of a closed session. -/
theorem moves_addBooking (hfresh : b.id ∉ db.bookings.map (·.id)) (hs : s ∈ db.slots) (hslot : b.slotId = s.id)
    (hseat : b.takes s.id = true ∧ db.seatsClosed s = false ∨ b.waitsFor s.id = true ∧ db.seatsClosed s = true) :
    Moves now none none db (db.addBooking b x) := by
  intro h
  have hrows := h.toRosterRows
  have hclosed := db.seatsClosed_iff s
  have hcounts : ∀ i, (db.addBooking b x).taken i = db.taken i + (b.takes i).toNat ∧
      (db.addBooking b x).waiting i = db.waiting i + (b.waitsFor i).toNat := append_counts db.bookings b
  have ho : Onward now db (db.addBooking b x) := by
    have happend := onward_append now db [] b (Function.update db.facts b.id x)
    rwa [List.append_nil] at happend
  have hrow : ∀ t ∈ db.slots, t.id = s.id → t = s := fun t ht => hrows.row_eq ht hs
  refine ⟨⟨⟨h.slotIds, ids_append h.bookingIds hfresh, fun c hc => ?_, h.lasts⟩, ?_⟩, ho,
    fun s _ _ _ _ _ i j hin => hin.keep ho ?_⟩
  · rcases List.mem_append.1 hc with hc | hc
    · exact h.placed c hc
    · obtain rfl := List.mem_singleton.1 hc
      exact ⟨s, hs, hslot.symm⟩
  · refine h.toSeated.change (i := s.id) rfl rfl rfl (fun j hj => ?_) ?_ ?_ fun j _ => id
    · have hother : b.slotId ≠ j := fun he => hj (he.symm.trans hslot)
      rw [(hcounts j).1, (hcounts j).2, takes_other hother, waitsFor_other hother]
      exact ⟨rfl, rfl⟩
    · intro t ht hid
      obtain rfl := hrow t ht hid
      have hroom := h.room t ht
      rw [(hcounts _).1]
      rcases hseat with ⟨htakes, hopen⟩ | ⟨hwaits, -⟩
      · have hnot := mt hclosed.2 (Bool.not_eq_true _ ▸ hopen)
        rw [htakes, Bool.toNat_true]
        push_cast
        omega
      · rw [not_takes_of_waits hwaits, Bool.toNat_false]
        exact hroom
    · intro t ht hid _ hahead hw
      obtain rfl := hrow t ht hid
      have hfull := h.full t ht (by simp) hahead
      rw [(hcounts _).2] at hw
      rw [(hcounts _).1]
      rcases hseat with ⟨htakes, hopen⟩ | ⟨hwaits, hclosed'⟩
      · have hnot := mt hclosed.2 (Bool.not_eq_true _ ▸ hopen)
        rw [not_waits_of_takes htakes, Bool.toNat_false] at hw
        omega
      · have hle : t.capacity ≤ db.taken t.id := (hclosed.1 hclosed').elim id hfull
        push_cast
        omega
  · intro _ _ c hc _ _ c' hc' _ hid _ _ _ hnot
    rw [row_append hrows hfresh hc hc' hid]
    exact hnot

/-- A slot is laid for its first booking. -/
theorem moves_laySlot (hfresh : b.id ∉ db.bookings.map (·.id)) (hnew : s.id ∉ db.slots.map (·.id))
    (hslot : b.slotId = s.id) (htakes : b.takes s.id = true) (hroom : 1 ≤ s.capacity) (hlasts : s.startsAt ≤ s.endsAt)
    (f : Id → BookingFacts) : Moves now none none db
      { db with slots := db.slots ++ [s], bookings := db.bookings ++ [b], facts := f } := by
  intro h
  have hrows := h.toRosterRows
  set db' : RosterDb := { db with slots := db.slots ++ [s], bookings := db.bookings ++ [b], facts := f }
  -- nobody has a booking on a slot that is not there
  have hempty : db.taken s.id = 0 ∧ db.waiting s.id = 0 := by
    refine counts_of_absent fun c hc he => ?_
    obtain ⟨t, ht, hid⟩ := h.placed c hc
    exact hnew ((hid.trans he) ▸ List.mem_map_of_mem ht)
  have hcounts : ∀ i, db'.taken i = db.taken i + (b.takes i).toNat ∧
      db'.waiting i = db.waiting i + (b.waitsFor i).toNat := append_counts db.bookings b
  have hrest : ∀ t ∈ db.slots, b.takes t.id = false := by
    intro t ht
    refine takes_other fun he => hnew ?_
    rw [← hslot, he]
    exact List.mem_map_of_mem ht
  have ho := onward_append now db [s] b f
  refine ⟨⟨⟨ids_append h.slotIds hnew, ids_append h.bookingIds hfresh, fun c hc => ?_, fun t ht => ?_⟩,
    ⟨fun t ht => ?_, fun t ht _ hahead hw => ?_⟩⟩, ho, fun s _ _ _ _ _ i j hin => hin.keep ho ?_⟩
  · rcases List.mem_append.1 hc with hc | hc
    · obtain ⟨t, ht, hid⟩ := h.placed c hc
      exact ⟨t, List.mem_append_left _ ht, hid⟩
    · obtain rfl := List.mem_singleton.1 hc
      exact ⟨s, List.mem_append_right _ (List.mem_singleton_self s), hslot.symm⟩
  · rcases List.mem_append.1 ht with ht | ht
    · exact h.lasts t ht
    · obtain rfl := List.mem_singleton.1 ht
      exact hlasts
  · rw [(hcounts t.id).1]
    rcases List.mem_append.1 ht with ht | ht
    · rw [hrest t ht]
      exact h.room t ht
    · obtain rfl := List.mem_singleton.1 ht
      rw [hempty.1, htakes]
      exact hroom
  · rw [(hcounts t.id).2, not_waits_of_takes htakes, Bool.toNat_false, Nat.add_zero] at hw
    rw [(hcounts t.id).1]
    rcases List.mem_append.1 ht with ht | ht
    · rw [hrest t ht]
      exact h.full t ht (by simp) (hahead.congr rfl rfl) hw
    · obtain rfl := List.mem_singleton.1 ht
      omega
  · intro _ _ c hc _ _ c' hc' _ hid _ _ _ hnot
    rw [row_append hrows hfresh hc hc' hid]
    exact hnot

end

/-! ### Freed seats -/

/-- A slot as a request read it: its row since has the same window and seats, and is canceled if it was. -/
def ReadAs (now : Int) (db : RosterDb) (slot : VisitSlot) : Prop :=
  ∃ row ∈ db.slots, row.id = slot.id ∧ row.itemId = slot.itemId ∧ row.capacity = slot.capacity ∧
    row.startsAt = slot.startsAt ∧ (now < slot.startsAt → slot.status = .canceled → row.status = .canceled)

section
variable {db db' : RosterDb} {now : Int} {freed freed' : Option Id} {slot : VisitSlot} {n : Nat}

theorem ReadAs.refl {s : VisitSlot} (hs : s ∈ db.slots) : ReadAs now db s := ⟨s, hs, rfl, rfl, rfl, rfl, fun _ h => h⟩

theorem ReadAs.onward (h : ReadAs now db slot) (ho : Onward now db db') : ReadAs now db' slot := by
  obtain ⟨row, hrow, hid, hitem, hcap, hstart, hcanceled⟩ := h
  obtain ⟨row', hrow', hid', hitem', hcap', hstart', hcanceled'⟩ := ho.slots row hrow
  exact ⟨row', hrow', hid'.trans hid, hitem'.trans hitem, hcap'.trans hcap, hstart'.trans hstart,
    fun hlater hc => hcanceled' (hstart ▸ hlater) (hcanceled hlater hc)⟩

/-- The loop is the general one. -/
theorem fillSeats_bookings (slot : VisitSlot) (n : Nat) (h : RosterRows db) : (db.fillSeats slot n).bookings =
    (seatDesk slot.id).fill slot.capacity n db.bookings ∧ (db.fillSeats slot n).slots = db.slots ∧
      (db.fillSeats slot n).items = db.items ∧ (db.fillSeats slot n).laid = db.laid := by
  induction n generalizing db with
  | zero => exact ⟨rfl, rfl, rfl, rfl⟩
  | succ n ih =>
    unfold RosterDb.fillSeats Desk.fill
    rw [db.bookedCount_eq]
    show (if (db.taken slot.id : Int) < slot.capacity then _ else db).bookings =
      (if (db.taken slot.id : Int) < slot.capacity then _ else db.bookings) ∧ _
    split
    · cases hf : (seatDesk slot.id).first db.bookings with
      | none => exact ⟨rfl, rfl, rfl, rfl⟩
      | some b =>
        obtain ⟨hb, -⟩ := Desk.first_mem hf
        have hsame : amend (·.id) b.id (seatDesk slot.id).seat db.bookings =
            amend SeatBooking.turn b.turn (seatDesk slot.id).seat db.bookings := by
          refine List.map_congr_left fun c hc => ?_
          by_cases hid : c.id = b.id
          · obtain rfl := h.booking_eq hc hb hid
            rw [if_pos rfl, if_pos rfl]
          · have hturn : c.turn ≠ b.turn := fun ht => hid (Prod.mk.inj (toLex_inj.1 ht)).2
            rw [if_neg hid, if_neg hturn]
        have hrows := setStatus_rows h b.id .confirmed
        have hseat : RosterRows (db.seatBooking b.id) :=
          ⟨hrows.slotIds, hrows.bookingIds, hrows.placed, hrows.lasts⟩
        obtain ⟨hbookings, hrest⟩ := ih hseat
        exact ⟨hbookings.trans (congrArg _ hsame), hrest⟩
    · exact ⟨rfl, rfl, rfl, rfl⟩

/-- Filling leaves the rows of bookings, but for the status of those it seats. -/
theorem fill_onward (now : Int) (slot : VisitSlot) (n : Nat) (h : RosterRows db) :
    Onward now db (db.fillSeats slot n) := by
  obtain ⟨hbookings, hslots, hitems, hlaid⟩ := fillSeats_bookings slot n h
  refine ⟨hitems, hlaid, fun s hs => ⟨s, hslots ▸ hs, rfl, rfl, rfl, rfl, fun _ h => h⟩, fun b hb => ?_⟩
  have hmap : ((seatDesk slot.id).fill slot.capacity n db.bookings).map (fun c => (c.id, c.slotId, c.turn, c.deleted)) =
      db.bookings.map fun c => (c.id, c.slotId, c.turn, c.deleted) := Desk.map_fill _ (fun _ _ => rfl) h.turns
  have hmem : (b.id, b.slotId, b.turn, b.deleted) ∈ (db.fillSeats slot n).bookings.map
      fun c => (c.id, c.slotId, c.turn, c.deleted) := by
    rw [hbookings, hmap]
    exact List.mem_map_of_mem hb
  obtain ⟨b', hb', he⟩ := List.mem_map.1 hmem
  simp only [Prod.mk.injEq] at he
  obtain ⟨hid, hslot, hturn, hdel⟩ := he
  refine ⟨b', hb', hid, hslot, hturn, hdel, fun hw => ?_⟩
  rw [hbookings] at hb'
  rcases Desk.mem_fill h.turns hb' with hb' | ⟨c, -, -, rfl⟩
  · obtain rfl := h.booking_eq hb' hb hid
    exact hw
  · cases hw

/-- Only the session's own places are filled. -/
theorem fillSeats_others (n : Nat) (h : RosterRows db) {j : Id} (hj : j ≠ slot.id) :
    (db.fillSeats slot n).taken j = db.taken j ∧ (db.fillSeats slot n).waiting j = db.waiting j := by
  have hout : ∀ c : SeatBooking, (seatDesk slot.id).waits c = true → c.slotId ≠ j := fun c hc he =>
    hj (he.symm.trans (slotId_of_waitsFor hc))
  unfold RosterDb.taken RosterDb.waiting
  rw [(fillSeats_bookings slot n h).1]
  constructor
  · refine Desk.countP_fill _ (fun c hc => ?_) h.turns
    rw [takes_other (hout c hc)]
    exact takes_other (hout c hc)
  · refine Desk.countP_fill _ (fun c hc => ?_) h.turns
    rw [waitsFor_other (hout c hc)]
    exact waitsFor_other (hout c hc)

theorem fillSeats_rows (n : Nat) (h : RosterRows db) : RosterRows (db.fillSeats slot n) := by
  obtain ⟨hbookings, hslots, -⟩ := fillSeats_bookings slot n h
  refine ⟨hslots ▸ h.slotIds, ?_, fun c hc => ?_, hslots ▸ h.lasts⟩
  · rw [hbookings, Desk.map_fill (fun c : SeatBooking => c.id) (fun _ _ => rfl) h.turns]
    exact h.bookingIds
  · rw [hslots]
    rw [hbookings] at hc
    rcases Desk.mem_fill h.turns hc with hc | ⟨z, hz, -, rfl⟩
    · exact h.placed c hc
    · exact h.placed z hz

/-- Whoever still waits after the filling waited before, and nobody behind them was seated. -/
theorem fillSeats_inTurn (n : Nat) (h : RosterRows db) {i j slotId : Id} (hin : InTurn db slotId i j) :
    InTurn (db.fillSeats slot n) slotId i j := by
  have hbookings := (fillSeats_bookings slot n h).1
  refine hin.keep (fill_onward 0 slot n h) fun a ha c hc a' ha' c' hc' hida hidc hturn hwas hwait hnot => ?_
  rw [hbookings] at ha' hc'
  have haa : a' = a := by
    rcases Desk.mem_fill h.turns ha' with ha' | ⟨z, -, -, rfl⟩
    · exact h.booking_eq ha' ha hida
    · have hstatus : ((seatDesk slot.id).seat z).waitsFor slotId = false := by simp [seatDesk, SeatBooking.waitsFor]
      rw [hstatus] at hwait
      cases hwait
  subst haa
  rcases Desk.mem_fill h.turns hc' with hc'' | ⟨z, hz, hwz, rfl⟩
  · obtain rfl := h.booking_eq hc'' hc hidc
    exact hnot
  · obtain rfl := h.booking_eq hz hc hidc
    by_cases hi : slotId = slot.id
    · rw [hi] at hwait
      exact absurd (Desk.fill_turn h.turns hz hwz hc' ha' hwait) (not_lt.2 hturn.le)
    · exact takes_other fun he => hi ((slotId_of_waitsFor hwz).symm.trans he).symm

/-- Filling the seats of a session leaves none free while anyone waits. -/
theorem moves_fillSeats (hcap : ∀ s ∈ db.slots, s.id = slot.id → s.capacity = slot.capacity)
    (hfreed : ∀ j, j ≠ slot.id → freed ≠ some j) :
    Moves now freed none db (db.fillSeats slot db.bookings.length) := by
  intro h
  have hrows := h.toRosterRows
  obtain ⟨hbookings, hslots, hitems, hlaid⟩ := fillSeats_bookings slot db.bookings.length hrows
  set db' := db.fillSeats slot db.bookings.length
  have hmine : db'.taken slot.id = ((seatDesk slot.id).fill slot.capacity db.bookings.length db.bookings).countP
      (seatDesk slot.id).taken := congrArg _ hbookings
  have hline : db'.waiting slot.id = ((seatDesk slot.id).fill slot.capacity db.bookings.length db.bookings).countP
      (seatDesk slot.id).waits := congrArg _ hbookings
  refine ⟨⟨fillSeats_rows _ hrows, ?_⟩, fill_onward now slot _ hrows, fun s _ _ _ _ _ i j hin =>
    fillSeats_inTurn _ hrows hin⟩
  refine h.toSeated.change (i := slot.id) hslots hitems hlaid (fun j hj => fillSeats_others _ hrows hj) ?_ ?_
    fun j hj _ => hfreed j hj
  · intro s hs hi
    rw [hmine, hcap s hs hi]
    refine Desk.fill_le hrows.turns ?_
    have hroom := h.room s hs
    rwa [hi, hcap s hs hi] at hroom
  · intro s hs hi _ _ hw
    rw [hline] at hw
    rw [hmine, hcap s hs hi]
    exact (Desk.fill_full hrows.turns List.countP_le_length).resolve_right hw.ne'

/-- Nothing is freed where the session is not ahead. -/
theorem moves_notAhead (hno : ∀ s ∈ db.slots, s.id = slot.id → ¬Ahead db now s)
    (hfreed : ∀ j, j ≠ slot.id → freed ≠ some j) : Moves now freed none db db := by
  refine fun h => ⟨⟨h.toRosterRows, h.room, fun s hs _ hahead => ?_⟩, .refl now db, fun _ _ _ _ _ _ _ _ h => h⟩
  by_cases hi : s.id = slot.id
  · exact absurd hahead (hno s hs hi)
  · exact h.full s hs (hfreed s.id hi) hahead

/-- A freed seat goes to whoever waits longest, and nobody waits beside a free one. -/
theorem moves_fillFreedSeats (hread : ReadAs now db slot) (hfreed : ∀ j, j ≠ slot.id → freed ≠ some j) :
    Moves now freed none db (db.fillFreedSeats now slot) := by
  intro h
  obtain ⟨row, hrow, hid, hitem, hcap, hstart, hcanceled⟩ := hread
  have heq : ∀ s ∈ db.slots, s.id = slot.id → s = row := fun s hs he =>
    h.toRosterRows.row_eq hs hrow (he.trans hid.symm)
  unfold RosterDb.fillFreedSeats
  split
  · next hguard =>
    refine moves_notAhead (fun s hs hi hahead => ?_) hfreed h
    obtain rfl := heq s hs hi
    rcases hguard with hseats | hc | hstarted
    · have hlt := hahead.seats
      omega
    · exact hahead.live (hcanceled (hstart ▸ hahead.later) hc)
    · have hlater := hahead.later
      omega
  · split
    · next hprogram =>
      refine moves_notAhead (fun s hs hi hahead => ?_) hfreed h
      obtain rfl := heq s hs hi
      have hsingle := hahead.single
      unfold RosterDb.isProgramDay at hsingle hprogram
      rw [hid, hitem, hprogram] at hsingle
      cases hsingle
    · refine moves_fillSeats (fun s hs hi => ?_) hfreed h
      rw [heq s hs hi]
      exact hcap

end

/-! ## Requests -/

section
variable {db db' db'' : RosterDb} {now : Int} {freed freed' freed'' : Option Id} {slot : VisitSlot} {b : SeatBooking}

/-- A move made where another led. -/
theorem Moves.bind (h : Moves now freed freed' db db')
    (h' : MovesTo now freed' db db' → Moves now freed' freed'' db' db'') : Moves now freed freed'' db db'' :=
  fun hok => h.trans (h' (h hok)) hok

theorem slot?_mem {id : Id} {s : VisitSlot} (h : db.slot? id = some s) : s ∈ db.slots ∧ s.id = id := by
  have hp := List.find?_some h
  exact ⟨List.mem_of_find?_eq_some h, of_decide_eq_true hp⟩

theorem booking?_mem {id : Id} (h : db.booking? id = some b) : b ∈ db.bookings ∧ b.id = id ∧ b.deleted = false := by
  have hp := List.find?_some h
  simp only [Bool.and_eq_true, decide_eq_true_eq, Bool.not_eq_true'] at hp
  exact ⟨List.mem_of_find?_eq_some h, hp⟩

/-- A booking with a seat keeps it. -/
theorem moves_keepSeat (hb : b ∈ db.bookings) (h1 : b.status ≠ .canceled) (h2 : b.status ≠ .waitlisted)
    {status : BookingStatus} (h1' : status ≠ .canceled) (h2' : status ≠ .waitlisted) :
    Moves now freed freed db (db.setStatus b.id status) := by
  refine moves_keep hb (fun i => ?_) (fun i => ?_) fun hw => absurd hw h2'
  · simp [SeatBooking.takes, h1, h2, h1', h2']
  · simp [SeatBooking.waitsFor, h2, h2']

theorem moves_dropLine (hb : b ∈ db.bookings) (hwait : b.status = .waitlisted) :
    Moves now freed freed db (db.setStatus b.id .canceled) := by
  refine moves_cancel hb (fun _ h => h) fun htakes => ?_
  simp [SeatBooking.takes, hwait] at htakes

theorem readAs_releaseSlot (h : ReadAs now db slot) :
    ReadAs now (db.releaseSlot slot).1 (db.releaseSlot slot).2 ∧ (db.releaseSlot slot).2.id = slot.id := by
  obtain ⟨row, hrow, hid, hitem, hcap, hstart, hcanceled⟩ := h
  unfold RosterDb.releaseSlot
  split
  · exact ⟨⟨row, hrow, hid, hitem, hcap, hstart, hcanceled⟩, rfl⟩
  · split
    · exact ⟨⟨row, hrow, hid, hitem, hcap, hstart, hcanceled⟩, rfl⟩
    · exact ⟨⟨{ row with status := .canceled }, mem_amend.2 ⟨row, hrow, if_pos hid⟩, hid, hitem, hcap, hstart,
        fun _ _ => rfl⟩, rfl⟩

/-- Whoever cancels gives the seat up, and it goes to the first in line. -/
theorem moves_cancelBooking (hb : b ∈ db.bookings) (hlive : b.status.seated = true ∨ b.status = .waitlisted)
    (hread : ReadAs now db slot) (hslot : b.slotId = slot.id) :
    Moves now none none db (db.cancelBooking now b slot) := by
  unfold RosterDb.cancelBooking
  refine (moves_dropDeposit b.id).bind fun h0 => ?_
  have hb0 : b ∈ (db.dropDeposit b.id).bookings := hb
  have hread0 := hread.onward h0.onward
  dsimp only
  split
  · next hseated =>
    have hfree : Moves now none (some b.slotId) (db.dropDeposit b.id)
        ((db.dropDeposit b.id).setStatus b.id .canceled) :=
      moves_cancel hb0 (fun j _ => by simp) fun _ => .inl rfl
    refine hfree.bind fun h1 => ?_
    obtain ⟨hread2, hid⟩ := readAs_releaseSlot (hread0.onward h1.onward)
    refine (moves_releaseSlot slot).bind fun h2 => ?_
    refine moves_fillFreedSeats hread2 fun j hj he => hj ?_
    rw [hid, ← hslot, ← Option.some.inj he]
  · next hnot =>
    refine Moves.trans (moves_dropLine hb0 (hlive.resolve_left hnot)) (moves_releaseSlot slot)

/-- One move after another, each where what it needs still stands. -/
theorem moves_foldl {β : Type} (P : RosterDb → β → Prop)
    (hP : ∀ {db db' x}, P db x → Onward now db db' → P db' x) (f : RosterDb → β → RosterDb)
    (h : ∀ {db x}, P db x → Moves now freed freed db (f db x)) {xs : List β} {db : RosterDb} (hxs : ∀ x ∈ xs, P db x) :
    Moves now freed freed db (xs.foldl f db) := by
  induction xs generalizing db with
  | nil => exact .refl now freed db
  | cons x xs ih =>
    refine (h (hxs x (List.mem_cons_self ..))).bind fun hmoved => ih fun y hy => ?_
    exact hP (hxs y (List.mem_cons_of_mem x hy)) hmoved.onward

theorem moves_cancelSeated (ids : List Id) : Moves now none none db (db.cancelSeated now ids) := by
  refine moves_foldl (fun _ _ => True) (fun _ _ => trivial) _ (fun {db id} _ => ?_) fun _ _ => trivial
  cases hb : db.booking? id with
  | none => exact .refl now none db
  | some b =>
    dsimp only
    cases hs : db.slot? b.slotId with
    | none => exact .refl now none db
    | some slot =>
      dsimp only
      split
      · next hseated =>
        obtain ⟨hmem, hid⟩ := slot?_mem hs
        exact moves_cancelBooking (booking?_mem hb).1 (.inl hseated) (.refl hmem) hid.symm
      · exact .refl now none db

theorem moves_cancelOnline {policy : ManagePolicy} {id : Id} (hok : db.cancelOnline policy now id = .ok db') :
    Moves now none none db db' := by
  unfold RosterDb.cancelOnline at hok
  cases hb : db.booking? id with
  | none =>
    rw [hb] at hok
    cases hok
  | some b =>
    rw [hb] at hok
    cases hs : db.slot? b.slotId with
    | none =>
      dsimp only at hok
      rw [hs] at hok
      cases hok
    | some slot =>
      dsimp only at hok
      rw [hs] at hok
      dsimp only at hok
      split at hok
      · cases hok
      · next hstatus =>
        split at hok
        · cases hok
        · split at hok
          · cases hok
          · obtain rfl := Except.ok.inj hok
            obtain ⟨hmem, hid⟩ := slot?_mem hs
            refine moves_cancelBooking (booking?_mem hb).1 ?_ (.refl hmem) hid.symm
            by_contra hno
            rw [not_or] at hno
            exact hstatus ⟨by simpa using hno.1, hno.2⟩

theorem moves_closePastWaitlists (midnight : Int) (held : List Id) :
    Moves now none none db (db.closePastWaitlists midnight held) := by
  refine moves_foldl (fun _ _ => True) (fun _ _ => trivial) _ (fun {db id} _ => ?_) fun _ _ => trivial
  cases hb : db.booking? id with
  | none => exact .refl now none db
  | some b =>
    dsimp only
    split
    · next hwait =>
      obtain ⟨hmem, rfl, -⟩ := booking?_mem hb
      exact (moves_dropLine hmem hwait.1).trans (moves_dropDeposit b.id)
    · exact .refl now none db

/-- A slot that has started. -/
def HasStarted (now : Int) (db : RosterDb) (slot : VisitSlot) : Prop :=
  ∃ s ∈ db.slots, s.id = slot.id ∧ s.startsAt ≤ now

theorem HasStarted.onward (h : HasStarted now db slot) (ho : Onward now db db') : HasStarted now db' slot := by
  obtain ⟨s, hs, hid, hstart⟩ := h
  obtain ⟨s', hs', hid', -, -, hstart', -⟩ := ho.slots s hs
  exact ⟨s', hs', hid'.trans hid, hstart' ▸ hstart⟩

theorem HasStarted.all (h : HasStarted now db slot) (hrows : RosterRows db) {s : VisitSlot} (hs : s ∈ db.slots)
    (hid : s.id = slot.id) : s.startsAt ≤ now := by
  obtain ⟨t, ht, htid, hstart⟩ := h
  obtain rfl := hrows.row_eq hs ht (hid.trans htid.symm)
  exact hstart

theorem HasStarted.completeWhenDone (h : HasStarted now db slot) :
    Moves now freed freed db (db.completeWhenDone slot) :=
  fun hok => moves_completeWhenDone (fun _ hs hid => h.all hok.toRosterRows hs hid) hok

/-- A visit of a slot that has ended is closed. -/
theorem moves_closePastVisit {midnight : Int} (hmid : midnight ≤ now) {givenBack : Id → Bool} {id : Id}
    (h : db.closePastVisit midnight givenBack id = some (db', slot)) :
    Moves now none none db db' ∧ (RosterRows db → HasStarted now db slot) := by
  unfold RosterDb.closePastVisit at h
  cases hb : db.booking? id with
  | none =>
    rw [hb] at h
    cases h
  | some b =>
    rw [hb] at h
    dsimp only at h
    cases hs : db.slot? b.slotId with
    | none =>
      rw [hs] at h
      cases h
    | some s =>
      rw [hs] at h
      dsimp only at h
      obtain ⟨hmem, rfl, -⟩ := booking?_mem hb
      obtain ⟨hsmem, hsid⟩ := slot?_mem hs
      split at h
      · cases h
      · next hended =>
        have hstarted : RosterRows db → HasStarted now db s := by
          intro hrows
          have hlasts := hrows.lasts s hsmem
          exact ⟨s, hsmem, rfl, by omega⟩
        split at h
        · next hconf =>
          obtain ⟨rfl, rfl⟩ := Prod.mk.inj (Option.some.inj h)
          refine ⟨Moves.trans (moves_keepSeat hmem ?_ ?_ ?_ ?_) (moves_dropDeposit b.id), hstarted⟩ <;> simp [hconf]
        · split at h
          · obtain ⟨rfl, rfl⟩ := Prod.mk.inj (Option.some.inj h)
            refine ⟨fun hok => Moves.trans (moves_cancel hmem (fun _ h => h) fun _ => .inr ?_)
              (moves_dropDeposit b.id) hok, hstarted⟩
            intro t ht htid hahead
            have hle := (hstarted hok.toRosterRows).all hok.toRosterRows ht (htid.trans hsid.symm)
            have hlt := hahead.later
            omega
          · cases h

theorem moves_closeVisits (db : RosterDb) {midnight : Int} (hmid : midnight ≤ now) (givenBack : Id → Bool)
    (held : List Id) : Moves now none none db (RosterDb.closeVisits midnight givenBack held db).1 ∧
      (RosterOk db now none → ∀ s ∈ (RosterDb.closeVisits midnight givenBack held db).2,
        HasStarted now (RosterDb.closeVisits midnight givenBack held db).1 s) := by
  induction held generalizing db with
  | nil => exact ⟨.refl now none db, fun _ s hs => by cases hs⟩
  | cons id held ih =>
    unfold RosterDb.closeVisits
    cases h : db.closePastVisit midnight givenBack id with
    | none => exact ih db
    | some r =>
      obtain ⟨db', slot⟩ := r
      obtain ⟨hmoves, hstarted⟩ := moves_closePastVisit hmid h
      obtain ⟨hrest, hslots⟩ := ih db'
      refine ⟨hmoves.trans hrest, fun hok s hs => ?_⟩
      have hmoved := hmoves hok
      rcases List.mem_cons.1 hs with rfl | hs
      · exact ((hstarted hok.toRosterRows).onward hmoved.onward).onward (hrest hmoved.ok).onward
      · exact hslots hmoved.ok s hs

theorem moves_closePastVisits {midnight : Int} (hmid : midnight ≤ now) (givenBack : Id → Bool) (held : List Id) :
    Moves now none none db (db.closePastVisits midnight givenBack held) := by
  intro hok
  obtain ⟨hmoves, hslots⟩ := moves_closeVisits db hmid givenBack held
  refine hmoves.trans (moves_foldl (HasStarted now) HasStarted.onward _ (fun {db slot} h => ?_) (hslots hok)) hok
  dsimp only
  have hrelease : Moves now none none db (db.releaseSlot slot).1 := moves_releaseSlot slot
  split
  · refine hrelease.bind fun hmoved => HasStarted.completeWhenDone ?_
    obtain ⟨s, hs, hid, hstart⟩ := h.onward hmoved.onward
    have hsame : (db.releaseSlot slot).2.id = slot.id := by
      unfold RosterDb.releaseSlot
      split
      · rfl
      · split <;> rfl
    exact ⟨s, hs, hid.trans hsame.symm, hstart⟩
  · exact hrelease

theorem moves_completeVisit (id : Id) : Moves now none none db (db.completeVisit now id) := by
  unfold RosterDb.completeVisit
  cases hb : db.booking? id with
  | none => exact .refl now none db
  | some b =>
    dsimp only
    cases hs : db.slot? b.slotId with
    | none => exact .refl now none db
    | some slot =>
      dsimp only
      split
      · exact .refl now none db
      · next hopen =>
        rw [not_or, not_not, not_lt] at hopen
        obtain ⟨hmem, rfl, -⟩ := booking?_mem hb
        obtain ⟨hsmem, -⟩ := slot?_mem hs
        have hstarted : HasStarted now db slot := ⟨slot, hsmem, rfl, hopen.2⟩
        have hkeep : Moves now none none db (db.setStatus b.id .completed) := by
          refine moves_keepSeat hmem ?_ ?_ ?_ ?_ <;> simp [hopen.1]
        exact hkeep.bind fun h1 => (moves_dropDeposit b.id).bind fun h2 =>
          ((hstarted.onward h1.onward).onward h2.onward).completeWhenDone

/-! ### A member's work canceled -/

theorem cancelAll_bookings (bs : List SeatBooking) (db : RosterDb) :
    (bs.foldl (fun (db : RosterDb) b => (db.dropDeposit b.id).setStatus b.id .canceled) db).bookings =
      db.bookings.map fun c => if c.id ∈ bs.map (·.id) then { c with status := .canceled } else c := by
  induction bs generalizing db with
  | nil => simp
  | cons b bs ih =>
    rw [List.foldl_cons, ih]
    show (amend (·.id) b.id (fun b => { b with status := .canceled }) db.bookings).map _ = _
    rw [amend, List.map_map]
    refine List.map_congr_left fun c _ => ?_
    show (if (if c.id = b.id then ({ c with status := .canceled } : SeatBooking) else c).id ∈ bs.map (·.id)
      then _ else _) = _
    by_cases hid : c.id = b.id
    · simp [hid]
    · simp [hid]

/-- Everyone on a session is taken off it, those who wait included. -/
theorem moves_cancelAll (s : VisitSlot) : Moves now none none db
    ((db.bookings.filter fun b => decide (b.slotId = s.id) && !b.deleted && b.status.open).foldl
      (fun db b => (db.dropDeposit b.id).setStatus b.id .canceled) db) := by
  intro hok
  set bs := db.bookings.filter fun b => decide (b.slotId = s.id) && !b.deleted && b.status.open with hbs
  have hopen : RosterOk db now (some s.id) :=
    ⟨hok.toRosterRows, hok.room, fun t ht _ => hok.full t ht (by simp)⟩
  have hmoves : Moves now (some s.id) (some s.id) db
      (bs.foldl (fun db b => (db.dropDeposit b.id).setStatus b.id .canceled) db) := by
    refine moves_foldl (fun db b => ∃ c ∈ db.bookings, c.id = b.id ∧ c.slotId = s.id) ?_ _ ?_ ?_
    · rintro db db' b ⟨c, hc, hid, hslot⟩ ho
      obtain ⟨c', hc', hid', hslot', -⟩ := ho.bookings c hc
      exact ⟨c', hc', hid'.trans hid, hslot'.trans hslot⟩
    · rintro db b ⟨c, hc, hid, hslot⟩
      have hmem : c ∈ (db.dropDeposit b.id).bookings := hc
      refine (moves_dropDeposit b.id).trans ?_
      rw [← hid] at hmem ⊢
      exact moves_cancel hmem (fun _ h => h) fun _ => .inl (congrArg some hslot.symm)
    · intro b hb
      obtain ⟨hmem, hp⟩ := List.mem_filter.1 hb
      simp only [Bool.and_eq_true, decide_eq_true_eq] at hp
      exact ⟨b, hmem, rfl, hp.1.1⟩
  obtain ⟨h, ho, hin⟩ := hmoves hopen
  -- nobody is left to wait
  have hempty : (bs.foldl (fun (db : RosterDb) b => (db.dropDeposit b.id).setStatus b.id .canceled) db).waiting s.id =
      0 := by
    refine List.countP_eq_zero.2 fun d hd hw => ?_
    rw [cancelAll_bookings] at hd
    obtain ⟨c, hc, rfl⟩ := List.mem_map.1 hd
    by_cases hmem : c.id ∈ bs.map (·.id)
    · rw [if_pos hmem, waitsFor_canceled] at hw
      cases hw
    · rw [if_neg hmem] at hw
      refine hmem (List.mem_map_of_mem (List.mem_filter.2 ⟨hc, ?_⟩))
      simp only [SeatBooking.waitsFor, Bool.and_eq_true, decide_eq_true_eq] at hw
      simp [hw.1.1, hw.1.2, hw.2, BookingStatus.open]
  refine ⟨⟨h.toRosterRows, h.room, fun t ht _ hahead hw => ?_⟩, ho, hin⟩
  refine h.full t ht (fun he => ?_) hahead hw
  rw [← Option.some.inj he, hempty] at hw
  exact Nat.lt_irrefl 0 hw

theorem moves_cancelWork (member : Id) (ahead : List Id) : Moves now none none db (db.cancelWork now member ahead) := by
  unfold RosterDb.cancelWork
  refine Moves.trans (moves_foldl (fun _ _ => True) (fun _ _ => trivial) _ (fun {db s} _ => ?_) fun _ _ => trivial)
    (moves_foldl (fun _ _ => True) (fun _ _ => trivial) _ (fun _ => moves_cancelSlot _) fun _ _ => trivial)
  exact (moves_cancelAll s).trans (moves_releaseSlot s)

/-! ### Rosters -/

theorem seatsClosed_congr {s t : VisitSlot} (hid : s.id = t.id) (hcap : s.capacity = t.capacity) :
    db.seatsClosed s = db.seatsClosed t := by
  unfold ScheduleDb.seatsClosed
  rw [hid, hcap]

/-- Added to the roster: a seat when one is open, else a place in line. -/
theorem moves_runAdd {new : NewBooking} (hread : ReadAs now db slot) (hfresh : new.id ∉ db.bookings.map (·.id))
    (hok : db.runAdd slot new = .ok db') : Moves now none none db db' := by
  obtain ⟨row, hrow, hid, -, hcap, -⟩ := hread
  unfold RosterDb.runAdd at hok
  split at hok
  · cases hok
  · obtain rfl := Except.ok.inj hok
    refine moves_addBooking hfresh hrow hid.symm ?_
    rw [seatsClosed_congr hid hcap]
    cases hclosed : db.seatsClosed slot with
    | false => exact .inl ⟨by simp [SeatBooking.takes, hid], rfl⟩
    | true => exact .inr ⟨by simp [SeatBooking.waitsFor, hid], rfl⟩

theorem moves_runJoin {new : NewBooking} (hread : ReadAs now db slot) (hfresh : new.id ∉ db.bookings.map (·.id))
    (hok : db.runJoin slot new = .ok db') : Moves now none none db db' := by
  obtain ⟨row, hrow, hid, -, hcap, -⟩ := hread
  unfold RosterDb.runJoin at hok
  split at hok
  · cases hok
  · next hclosed =>
    split at hok
    · cases hok
    · obtain rfl := Except.ok.inj hok
      refine moves_addBooking hfresh hrow hid.symm (.inr ⟨by simp [SeatBooking.waitsFor, hid], ?_⟩)
      rw [seatsClosed_congr hid hcap]
      simpa using hclosed

/-- A booking on the session a request read. -/
def OnSlot (db : RosterDb) (slot : VisitSlot) (id : Id) : Prop := ∀ b ∈ db.bookings, b.id = id → b.slotId = slot.id

theorem moves_runAct {id : Id} {action : RosterAction} (hread : ReadAs now db slot) (hon : OnSlot db slot id)
    (hok : db.runAct now slot id action = .ok db') : Moves now none none db db' := by
  unfold RosterDb.runAct at hok
  cases hb : db.booking? id with
  | none =>
    rw [hb] at hok
    cases hok
  | some b =>
    rw [hb] at hok
    obtain ⟨hmem, rfl, hdel⟩ := booking?_mem hb
    cases action with
    | checkIn =>
      dsimp only at hok
      split at hok
      · cases hok
      · obtain rfl := Except.ok.inj hok
        exact moves_facts b.id _
    | undo =>
      dsimp only at hok
      split at hok
      · obtain rfl := Except.ok.inj hok
        exact moves_facts b.id _
      · split at hok
        · next hnoShow =>
          obtain rfl := Except.ok.inj hok
          refine moves_keepSeat hmem ?_ ?_ ?_ ?_ <;> simp [hnoShow.1]
        · cases hok
    | noShow =>
      dsimp only at hok
      split at hok
      · cases hok
      · next hconf =>
        rw [not_not] at hconf
        obtain rfl := Except.ok.inj hok
        have hkeep : Moves now none none db (db.setStatus b.id .noShow) := by
          refine moves_keepSeat hmem ?_ ?_ ?_ ?_ <;> simp [hconf]
        refine hkeep.bind fun h1 => (moves_facts b.id fun x => { x with checkedIn := false }).bind fun h2 => ?_
        exact moves_fillFreedSeats ((hread.onward h1.onward).onward h2.onward) fun _ _ => by simp
    | seat =>
      dsimp only at hok
      split at hok
      · cases hok
      · next hwait =>
        rw [not_not] at hwait
        split at hok
        · cases hok
        · next hfull =>
          obtain rfl := Except.ok.inj hok
          rw [db.bookedCount_eq, not_le] at hfull
          have hslot := hon b hmem rfl
          have hw : b.waitsFor b.slotId = true := by simp [SeatBooking.waitsFor, hdel, hwait]
          refine fun h => Moves.trans (moves_promote hmem hw fun s hs hid => ?_) (moves_facts b.id _) h
          obtain ⟨row, hrow, hrid, -, hcap, -⟩ := hread
          obtain rfl := h.toRosterRows.row_eq hs hrow (hid.trans (hslot.trans hrid.symm))
          rw [hslot, hcap]
          exact hfull

/-- A patch read with a status: only a booking that waits then waits now, and only a cancel is let through for it. -/
structure PatchRead (now : Int) (db : RosterDb) (slot : VisitSlot) (id : Id) (before : BookingStatus)
    (status : PatchedStatus) : Prop where
  read : ReadAs now db slot
  on : OnSlot db slot id
  waits : ∀ b ∈ db.bookings, b.id = id → b.status = .waitlisted → before = .waitlisted
  leaves : before = .waitlisted → status = .canceled
  started : status = .completed → status.status ≠ before → slot.startsAt ≤ now

theorem moves_runPatch {id : Id} {before : BookingStatus} {status : PatchedStatus}
    (hread : PatchRead now db slot id before status) (hok : db.runPatch now slot id before status = .ok db') :
    Moves now none none db db' := by
  unfold RosterDb.runPatch at hok
  split at hok
  · obtain rfl := Except.ok.inj hok
    exact .refl now none db
  · next hbefore =>
    cases hb : db.booking? id with
    | none =>
      rw [hb] at hok
      cases hok
    | some b =>
      rw [hb] at hok
      dsimp only at hok
      obtain ⟨hmem, rfl, hdel⟩ := booking?_mem hb
      split at hok
      · obtain rfl := Except.ok.inj hok
        exact .refl now none db
      · next hother =>
        split at hok
        · cases hok
        · next hopen =>
          -- a booking that waits can only be canceled
          have hseated : status ≠ .canceled → b.status.seated = true := by
            intro hs
            have hnot : b.status ≠ .waitlisted := fun hw => hs (hread.leaves (hread.waits b hmem rfl hw))
            cases h : b.status <;> simp_all [BookingStatus.terminal, BookingStatus.seated]
          have hkeep : status ≠ .canceled → ∀ st : BookingStatus, st ≠ .canceled → st ≠ .waitlisted →
              Moves now none none db (db.setStatus b.id st) := by
            intro hs st h1 h2
            have hstatus := hseated hs
            refine moves_keepSeat hmem (fun h => ?_) (fun h => ?_) h1 h2
            · rw [h] at hstatus
              cases hstatus
            · rw [h] at hstatus
              cases hstatus
          cases status with
          | confirmed =>
            obtain rfl := Except.ok.inj hok
            exact hkeep (by simp) _ (by simp) (by simp)
          | completed =>
            obtain rfl := Except.ok.inj hok
            obtain ⟨row, hrow, hrid, -, -, hstart, -⟩ := hread.read
            have hstarted : HasStarted now db slot := ⟨row, hrow, hrid, hstart ▸ hread.started rfl hbefore⟩
            exact (hkeep (by simp) .completed (by simp) (by simp)).bind fun h1 =>
              (moves_dropDeposit b.id).bind fun h2 =>
                ((hstarted.onward h1.onward).onward h2.onward).completeWhenDone
          | canceled =>
            obtain rfl := Except.ok.inj hok
            refine moves_cancelBooking hmem ?_ hread.read (hread.on b hmem rfl)
            cases h : b.status <;> simp_all [BookingStatus.terminal, BookingStatus.seated, PatchedStatus.status]
          | noShow =>
            obtain rfl := Except.ok.inj hok
            have hmoved := hkeep (by simp) .noShow (by simp) (by simp)
            split
            · exact hmoved.bind fun h1 => moves_fillFreedSeats (hread.read.onward h1.onward) fun _ _ => by simp
            · exact hmoved

/-- A booking made joins an open session or lays a slot. -/
theorem createBookingCore_ok {db : ScheduleDb} {item : ServiceItem} {staffId clientId slotId bookingId : Id}
    {startsAt createdAt : Int} {subjectId chosen : Option Id} {dedupe : Bool} {extraMin : Nat}
    {r : ScheduleDb × SeatBooking × VisitSlot}
    (h : db.createBookingCore item staffId startsAt clientId subjectId dedupe extraMin chosen slotId bookingId
      createdAt = .ok r) :
    ∃ slot, r.2.1 = ⟨bookingId, slot.id, clientId, subjectId, .confirmed, false, createdAt⟩ ∧
      (slot ∈ db.slots ∧ db.seatsClosed slot = false ∧ (dedupe = true → db.hasSeat slot.id clientId subjectId = false) ∧
          r.1 = { db with bookings := db.bookings ++ [r.2.1] } ∨
        slot.id = slotId ∧ 1 ≤ slot.capacity ∧ slot.startsAt ≤ slot.endsAt ∧
          r.1 = { db with slots := db.slots ++ [slot], bookings := db.bookings ++ [r.2.1] }) := by
  unfold ScheduleDb.createBookingCore at h
  split at h
  · cases h
  · split at h
    · cases h
    · dsimp only at h
      split at h
      · cases h
      · split at h
        · cases h
        · split at h
          · next slot hjoin =>
            split at h
            · cases h
            · next hasked =>
              split at h
              · cases h
              · next hclosed =>
                obtain rfl := Except.ok.inj h
                refine ⟨slot, rfl, .inl ⟨?_, by simpa using hclosed, fun hd => by simpa [hd] using hasked, rfl⟩⟩
                split at hjoin
                · exact List.mem_of_find?_eq_some hjoin
                · cases hjoin
          · split at h
            · cases h
            · split at h
              · cases h
              · split at h
                · cases h
                · obtain rfl := Except.ok.inj h
                  refine ⟨_, rfl, .inr ⟨rfl, ?_, ?_, rfl⟩⟩
                  · show 1 ≤ if item.isClass then item.capacity.getD 1 else 1
                    split
                    · next hclass =>
                      simp only [ServiceItem.isClass, Bool.and_eq_true] at hclass
                      cases hc : item.capacity with
                      | none => exact le_rfl
                      | some c =>
                        rw [hc] at hclass
                        have hlt := of_decide_eq_true hclass.2
                        show 1 ≤ c
                        omega
                    · exact le_rfl
                  · show startsAt ≤ startsAt + minutesOf (item.visitMinutes extraMin)
                    have hlen : 0 ≤ minutesOf (item.visitMinutes extraMin) :=
                      Int.mul_nonneg (Int.natCast_nonneg _) (by decide)
                    omega

theorem moves_bookVisit {item : ServiceItem} {staffId slotId : Id} {startsAt : Int} {new : NewBooking} {dedupe : Bool}
    {extraMin : Nat} {chosen : Option Id} (hfresh : new.id ∉ db.bookings.map (·.id))
    (hnew : slotId ∉ db.slots.map (·.id))
    (hok : db.bookVisit item staffId startsAt new dedupe extraMin chosen slotId = .ok db') :
    Moves now none none db db' := by
  unfold RosterDb.bookVisit at hok
  cases hcore : db.createBookingCore item staffId startsAt new.clientId new.subjectId dedupe extraMin chosen slotId
      new.id new.createdAt with
  | error e =>
    rw [hcore] at hok
    cases hok
  | ok r =>
    rw [hcore] at hok
    obtain ⟨schedule, booking, slot⟩ := r
    obtain ⟨slot', hbooking, hr⟩ := createBookingCore_ok hcore
    dsimp only at hok hbooking hr
    obtain rfl := Except.ok.inj hok
    have hid : booking.id = new.id := by rw [hbooking]
    have htakes : booking.takes slot'.id = true := by simp [hbooking, SeatBooking.takes]
    set facts := Function.update db.facts booking.id (BookingFacts.new new.online new.depositCents)
    -- the booking made, before a new client's waits for its answer
    have hmoves : Moves now none none db { db with toScheduleDb := schedule, facts := facts } ∧
        booking ∈ ({ db with toScheduleDb := schedule, facts := facts } : RosterDb).bookings := by
      rcases hr with ⟨hmem, hclosed, -, rfl⟩ | ⟨hslot, hcap, hlasts, rfl⟩
      · refine ⟨moves_addBooking (hid ▸ hfresh) hmem (by rw [hbooking]) (.inl ⟨htakes, hclosed⟩), ?_⟩
        exact List.mem_append_right _ (List.mem_singleton_self _)
      · refine ⟨moves_laySlot (hid ▸ hfresh) (hslot ▸ hnew) (by rw [hbooking]) htakes hcap hlasts facts, ?_⟩
        exact List.mem_append_right _ (List.mem_singleton_self _)
    split
    · refine hmoves.1.trans (moves_keepSeat hmoves.2 ?_ ?_ ?_ ?_) <;> simp [hbooking]
    · exact hmoves.1

end
end ClientBridge
