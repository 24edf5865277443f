import ClientBridge.Scheduling.ClassMoves

/-!
# Classes over whole runs

Whatever requests come, in whatever order and however their reads and runs interleave, no session is overbooked, and
while a class is ahead nobody waits for it beside a free seat (`classes_fair`).  So a manager's own choice of whom to
seat has no place there, and the line moves in order: nobody gets a seat while someone who came before still waits
(`seated_in_turn`).
-/

namespace ClientBridge

open Calendar Runs Waitlists

section
variable {π : Type} {p : π} {s s' : RosterStore} {x x' : RosterPlace} {db db' : RosterDb} {now now' : Int}
  {slot : VisitSlot} {id : Id}

/-! ## Later -/

theorem Onward.later (h : Onward now db db') (hle : now ≤ now') : Onward now' db db' := by
  refine ⟨h.items, h.laid, fun s hs => ?_, h.bookings⟩
  obtain ⟨s', hs', hid, hitem, hcap, hstart, hcanceled⟩ := h.slots s hs
  exact ⟨s', hs', hid, hitem, hcap, hstart, fun hlater => hcanceled (hle.trans_lt hlater)⟩

theorem Ahead.earlier (h : Ahead db now' slot) (hle : now ≤ now') : Ahead db now slot :=
  ⟨h.seats, h.live, h.single, hle.trans_lt h.later⟩

theorem RosterOk.later (h : RosterOk db now none) (hle : now ≤ now') : RosterOk db now' none :=
  ⟨h.toRosterRows, h.room, fun s hs hne hahead => h.full s hs hne (hahead.earlier hle)⟩

theorem ReadAs.later (h : ReadAs now db slot) (hle : now ≤ now') : ReadAs now' db slot := by
  obtain ⟨row, hrow, hid, hitem, hcap, hstart, hcanceled⟩ := h
  exact ⟨row, hrow, hid, hitem, hcap, hstart, fun hlater => hcanceled (hle.trans_lt hlater)⟩

/-! ## What a request knows -/

/-- The booking a request read is still on the session, and waits only if it did then. -/
def BookingRead (db : RosterDb) (slot : VisitSlot) (id : Id) (before : BookingStatus) : Prop :=
  ∃ b ∈ db.bookings, b.id = id ∧ b.slotId = slot.id ∧ (b.status = .waitlisted → before = .waitlisted)

theorem BookingRead.onward {before : BookingStatus} (h : BookingRead db slot id before) (ho : Onward now db db') :
    BookingRead db' slot id before := by
  obtain ⟨b, hb, hid, hslot, hwait⟩ := h
  obtain ⟨b', hb', hid', hslot', -, -, hwait'⟩ := ho.bookings b hb
  exact ⟨b', hb', hid'.trans hid, hslot'.trans hslot, fun h => hwait (hwait' h)⟩

def PlaceOk (s : RosterStore) : RosterPlace → Prop
  | .idle => True
  | .adding slot _ => ReadAs s.now s.db slot
  | .joining slot _ => ReadAs s.now s.db slot
  | .acting slot id _ => ReadAs s.now s.db slot ∧ ∃ before, BookingRead s.db slot id before
  | .patching slot id before status => ReadAs s.now s.db slot ∧ BookingRead s.db slot id before ∧
      (before = .waitlisted → status = .canceled) ∧
      (status = .completed → status.status ≠ before → slot.startsAt ≤ s.now)
  | .ending _ => True

/-- What others do leaves a request's reading true. -/
theorem PlaceOk.onward (h : PlaceOk s x) (hnow : s.now ≤ s'.now) (ho : Onward s'.now s.db s'.db) : PlaceOk s' x := by
  cases x with
  | idle => trivial
  | adding slot new => exact (ReadAs.later h hnow).onward ho
  | joining slot new => exact (ReadAs.later h hnow).onward ho
  | acting slot id action =>
    obtain ⟨hread, before, hbooking⟩ := h
    exact ⟨(hread.later hnow).onward ho, before, hbooking.onward ho⟩
  | patching slot id before status =>
    obtain ⟨hread, hbooking, hleaves, hstarted⟩ := h
    exact ⟨(hread.later hnow).onward ho, hbooking.onward ho, hleaves, fun hs hne => (hstarted hs hne).trans hnow⟩
  | ending visits => trivial

theorem session_mem {slotId : Id} (h : db.session slotId = .ok slot) : slot ∈ db.slots ∧ slot.id = slotId := by
  unfold RosterDb.session at h
  cases hs : db.slot? slotId with
  | none =>
    rw [hs] at h
    cases h
  | some t =>
    rw [hs] at h
    dsimp only at h
    split at h
    · cases h
    · obtain rfl := Except.ok.inj h
      exact slot?_mem hs

theorem readAdd_mem {slotId : Id} (h : db.readAdd now slotId = .ok slot) : slot ∈ db.slots := by
  unfold RosterDb.readAdd at h
  cases hs : db.session slotId with
  | error e =>
    rw [hs] at h
    cases h
  | ok t =>
    rw [hs] at h
    dsimp only at h
    split at h
    · cases h
    · split at h
      · cases h
      · obtain rfl := Except.ok.inj h
        exact (session_mem hs).1

theorem readJoin_mem {policy : BookingPolicy} {item : ServiceItem} {staff : List Id} {startsAt : Int}
    (h : db.readJoin policy now item staff startsAt = .ok slot) : slot ∈ db.slots := by
  unfold RosterDb.readJoin at h
  split at h
  · cases h
  · split at h
    · cases h
    · split at h
      · cases h
      · split at h
        · cases h
        · split at h
          · cases h
          · next t hfirst =>
            obtain rfl := Except.ok.inj h
            exact (List.mem_filter.1 (List.argmin_mem (Option.mem_def.2 hfirst))).1

theorem readAct_ok {slotId : Id} {action : RosterAction} (h : db.readAct now slotId id action = .ok slot) :
    slot ∈ db.slots ∧ ∃ before, BookingRead db slot id before := by
  unfold RosterDb.readAct at h
  cases hs : db.session slotId with
  | error e =>
    rw [hs] at h
    cases h
  | ok t =>
    rw [hs] at h
    dsimp only at h
    split at h
    · cases h
    · next hon =>
      split at h
      · cases h
      · obtain rfl := Except.ok.inj h
        obtain ⟨hsmem, hsid⟩ := session_mem hs
        refine ⟨hsmem, ?_⟩
        rw [Bool.not_eq_true', Bool.not_eq_false, Option.any_eq_true] at hon
        obtain ⟨b, hb, hslot⟩ := hon
        obtain ⟨hmem, hid, -⟩ := booking?_mem hb
        exact ⟨b.status, b, hmem, hid, (of_decide_eq_true hslot).trans hsid.symm, fun h => h⟩

theorem readPatch_ok {status : PatchedStatus} {before : BookingStatus}
    (h : db.readPatch now id status = .ok (slot, before)) :
    slot ∈ db.slots ∧ BookingRead db slot id before ∧ (before = .waitlisted → status = .canceled) ∧
      (status = .completed → status.status ≠ before → slot.startsAt ≤ now) := by
  unfold RosterDb.readPatch at h
  cases hb : db.booking? id with
  | none =>
    rw [hb] at h
    cases h
  | some b =>
    rw [hb] at h
    dsimp only at h
    cases hs : db.slot? b.slotId with
    | none =>
      rw [hs] at h
      cases h
    | some t =>
      rw [hs] at h
      dsimp only at h
      split at h
      · cases h
      · split at h
        · cases h
        · next hline =>
          split at h
          · cases h
          · next hstart =>
            obtain ⟨rfl, rfl⟩ := Prod.mk.inj (Except.ok.inj h)
            obtain ⟨hmem, hid, -⟩ := booking?_mem hb
            obtain ⟨hsmem, hsid⟩ := slot?_mem hs
            refine ⟨hsmem, ⟨b, hmem, hid, hsid.symm, fun h => h⟩, fun hw => ?_, fun hc hne => ?_⟩
            · by_contra hno
              exact hline ⟨hw, hno⟩
            · by_contra hlater
              exact hstart ⟨.inl hc, hne, not_le.1 hlater⟩

/-! ## Steps -/

theorem BookingRead.all {before : BookingStatus} (h : BookingRead db slot id before) (hrows : RosterRows db)
    {b : SeatBooking} (hb : b ∈ db.bookings) (hid : b.id = id) :
    b.slotId = slot.id ∧ (b.status = .waitlisted → before = .waitlisted) := by
  obtain ⟨c, hc, hcid, hrest⟩ := h
  obtain rfl := hrows.booking_eq hb hc (hid.trans hcid.symm)
  exact hrest

/-- What a step does is a move, at the time it is made. -/
theorem RosterStep.moved (h : RosterStep p s x s' x') (hok : RosterOk s.db s.now none) (hx : PlaceOk s x) :
    s.now ≤ s'.now ∧ MovesTo s'.now none s.db s'.db := by
  have hrows := hok.toRosterRows
  cases h with
  | tick ht => exact ⟨ht, Moves.refl _ none s.db (hok.later ht)⟩
  | deposit id status deposits =>
    exact ⟨le_rfl, moves_facts id (fun x => { x with depositStatus := status, deposits := deposits }) hok⟩
  | handOver id member => exact ⟨le_rfl, moves_handOver id member hok⟩
  | leave => exact ⟨le_rfl, Moves.refl _ none s.db hok⟩
  | book hfresh hnew hres => exact ⟨le_rfl, moves_bookVisit hfresh hnew hres hok⟩
  | readAdd new hres => exact ⟨le_rfl, Moves.refl _ none s.db hok⟩
  | runAdd _ hfresh hres => exact ⟨le_rfl, moves_runAdd hx hfresh hres hok⟩
  | readJoin new hres => exact ⟨le_rfl, Moves.refl _ none s.db hok⟩
  | runJoin _ hfresh hres => exact ⟨le_rfl, moves_runJoin hx hfresh hres hok⟩
  | readAct hres => exact ⟨le_rfl, Moves.refl _ none s.db hok⟩
  | runAct _ hres =>
    obtain ⟨hread, before, hbooking⟩ := hx
    exact ⟨le_rfl, moves_runAct hread (fun b hb hid => (hbooking.all hrows hb hid).1) hres hok⟩
  | readPatch hres => exact ⟨le_rfl, Moves.refl _ none s.db hok⟩
  | runPatch _ hres =>
    obtain ⟨hread, hbooking, hleaves, hstarted⟩ := hx
    exact ⟨le_rfl, moves_runPatch ⟨hread, fun b hb hid => (hbooking.all hrows hb hid).1,
      fun b hb hid => (hbooking.all hrows hb hid).2, hleaves, hstarted⟩ hres hok⟩
  | cancelOnline hres => exact ⟨le_rfl, moves_cancelOnline hres hok⟩
  | readSeries series => exact ⟨le_rfl, Moves.refl _ none s.db hok⟩
  | runSeries _ => exact ⟨le_rfl, moves_cancelSeated _ hok⟩
  | reap released => exact ⟨le_rfl, moves_cancelSeated _ hok⟩
  | cancelWork member ahead => exact ⟨le_rfl, moves_cancelWork member ahead hok⟩
  | closeWaitlists _ held => exact ⟨le_rfl, moves_closePastWaitlists _ held hok⟩
  | closeVisits hmid givenBack held => exact ⟨le_rfl, moves_closePastVisits hmid givenBack held hok⟩
  | complete id => exact ⟨le_rfl, moves_completeVisit id hok⟩

/-- A request that goes on knows what it has read. -/
theorem RosterStep.placeOk (h : RosterStep p s x s' x') (hnow : s.now ≤ s'.now) (ho : Onward s'.now s.db s'.db)
    (hx : PlaceOk s x) : PlaceOk s' x' := by
  cases h with
  | tick ht => exact hx.onward hnow ho
  | deposit id status deposits => exact hx.onward hnow ho
  | handOver id member => exact hx.onward hnow ho
  | readAdd new hres => exact ReadAs.refl (readAdd_mem hres)
  | readJoin new hres => exact ReadAs.refl (readJoin_mem hres)
  | readAct hres =>
    obtain ⟨hmem, hbooking⟩ := readAct_ok hres
    exact ⟨.refl hmem, hbooking⟩
  | readPatch hres =>
    obtain ⟨hmem, hbooking, hrest⟩ := readPatch_ok hres
    exact ⟨.refl hmem, hbooking, hrest⟩
  | _ => trivial

theorem rosterKept (π : Type) : Kept (@RosterStep π) (fun s => RosterOk s.db s.now none) fun _ => PlaceOk where
  store h hI hJ := (h.moved hI hJ).2.ok
  own h hI hJ := h.placeOk (h.moved hI hJ).1 (h.moved hI hJ).2.onward hJ
  others h _ hI hJ hq := hq.onward (h.moved hI hJ).1 (h.moved hI hJ).2.onward

end

/-! ## Runs -/

theorem MovesTo.later {db db' : RosterDb} {now now' : Int} (h : MovesTo now none db db') (hle : now ≤ now') :
    MovesTo now' none db db' :=
  ⟨h.ok.later hle, h.onward.later hle, fun s hs s' hs' hid hahead => h.inTurn s hs s' hs' hid (hahead.earlier hle)⟩

section
variable {π : Type} [DecidableEq π] {w v w' : World π RosterStore RosterPlace} {ps qs : List π}

omit [DecidableEq π] in
/-- What a world knows at rest. -/
theorem roster_knows (hidle : ∀ p, w.place p = .idle) (hrows : RosterRows w.store.db)
    (hfair : Seated w.store.db w.store.now none) : Knows (fun s => RosterOk s.db s.now none) (fun _ => PlaceOk) w :=
  ⟨⟨hrows, hfair⟩, fun p => (hidle p).symm ▸ trivial⟩

/-- A whole run is a move. -/
theorem run_moved (hknows : Knows (fun s => RosterOk s.db s.now none) (fun _ => PlaceOk) w)
    (hrun : Run (Interleaved RosterStep) w ps w') : MovesTo w'.store.now none w.store.db w'.store.db := by
  induction hrun with
  | nil => exact Moves.refl _ none _ hknows.1
  | @snoc ps v u p hrun hstep ih =>
    have hv := (rosterKept π).run hrun hknows
    cases hstep with
    | step h =>
      obtain ⟨hle, hmoved⟩ := h.moved hv.1 (hv.2 p)
      exact (ih.later hle).trans hmoved

/-- However requests interleave, no session has more seats taken than it has, and while one is ahead nobody waits for it
beside a free seat. -/
theorem classes_fair (hidle : ∀ p, w.place p = .idle) (hrows : RosterRows w.store.db)
    (hfair : Seated w.store.db w.store.now none) (hrun : Run (Interleaved RosterStep) w ps w') :
    Seated w'.store.db w'.store.now none :=
  ((rosterKept π).run hrun (roster_knows hidle hrows hfair)).1.toSeated

/-- Between any two states of a run, whoever waits for a session that is still ahead keeps their turn: nobody who
comes after them has been given a seat there, whichever way the seats were freed and whoever gave them out. -/
theorem seated_in_turn (hidle : ∀ p, w.place p = .idle) (hrows : RosterRows w.store.db)
    (hfair : Seated w.store.db w.store.now none) (hrun : Run (Interleaved RosterStep) w ps v)
    (hlater : Run (Interleaved RosterStep) v qs w') {s s' : VisitSlot} (hs : s ∈ v.store.db.slots)
    (hs' : s' ∈ w'.store.db.slots) (hid : s'.id = s.id) (hahead : Ahead w'.store.db w'.store.now s')
    {a b a' b' : SeatBooking} (ha : a ∈ v.store.db.bookings) (hb : b ∈ v.store.db.bookings) (hturn : a.turn < b.turn)
    (hout : b.takes s.id = false) (ha' : a' ∈ w'.store.db.bookings) (hb' : b' ∈ w'.store.db.bookings)
    (haid : a'.id = a.id) (hbid : b'.id = b.id) (hwaits : a'.waitsFor s.id = true) : b'.takes s.id = false := by
  have hmoved := run_moved ((rosterKept π).run hrun (roster_knows hidle hrows hfair)) hlater
  have hin : InTurn v.store.db s.id a.id b.id :=
    ⟨a, ha, b, hb, rfl, rfl, hturn, fun htakes => by rw [hout] at htakes; cases htakes⟩
  obtain ⟨c, hc, d, hd, hcid, hdid, -, hfair'⟩ := hmoved.inTurn s hs s' hs' hid hahead _ _ hin
  obtain rfl := hmoved.ok.booking_eq hc ha' (hcid.trans haid.symm)
  obtain rfl := hmoved.ok.booking_eq hd hb' (hdid.trans hbid.symm)
  cases htakes : d.takes s.id with
  | false => rfl
  | true =>
    rw [hfair' htakes] at hwaits
    cases hwaits

end
/-! ## Places in line -/

/-- A client in line is told how many seats have to come free: once that many are, filling seats them, and not
before. -/
theorem seated_by_position {db : RosterDb} (hrows : RosterRows db) {now : Int} {slot : VisitSlot}
    (hahead : Ahead db now slot) {b : SeatBooking} (hb : b ∈ db.bookings) (hwait : b.waitsFor slot.id = true) {k : Nat}
    (hk : db.waitlistPosition b = some k) :
    { b with status := .confirmed } ∈ (db.fillFreedSeats now slot).bookings ↔
      (k : Int) ≤ slot.capacity - db.taken slot.id := by
  have hfill : db.fillFreedSeats now slot = db.fillSeats slot db.bookings.length := by
    unfold RosterDb.fillFreedSeats
    have hseats := hahead.seats
    have hlater := hahead.later
    rw [if_neg (by simp [hahead.live]; omega), if_neg (by simp [hahead.single])]
  have hslot := slotId_of_waitsFor hwait
  have hplace : k = (seatDesk slot.id).before b db.bookings + 1 := by
    unfold RosterDb.waitlistPosition at hk
    simp only [SeatBooking.waitsFor, Bool.and_eq_true, decide_eq_true_eq] at hwait
    rw [if_neg (by simp [hwait.2]), hslot] at hk
    exact (Option.some.inj hk).symm
  rw [hfill, (fillSeats_bookings _ _ hrows).1]
  show (seatDesk slot.id).seat b ∈ _ ↔ _
  rw [Desk.seat_mem_fill hrows.turns List.countP_le_length hb hwait, hplace]
  show (db.taken slot.id : Int) + _ < _ ↔ _
  push_cast
  omega

/-! ## A yoga class -/

def yogaSpot (id clientId : Id) (status : BookingStatus) (createdAt : Int) : SeatBooking :=
  ⟨id, "slot_1", clientId, none, status, false, createdAt⟩

def yogaSlot : VisitSlot := ⟨"slot_1", "itm_yoga", "ana", none, 1000000, 4600000000, 2, .scheduled⟩

def yogaClass : ServiceItem := ⟨"itm_yoga", true, some 60, 0, 0, some 2, none, [], []⟩

/-- The studio's clocks never change. -/
theorem yogaClock_spread : ∀ a ∈ (0 : Int) :: ([] : List (Int × Int)).map (·.2),
    ∀ b ∈ (0 : Int) :: ([] : List (Int × Int)).map (·.2), a ≤ b + 86400 := by decide

/-- Two have a seat in a class for two, and three wait. -/
def yogaRoster : RosterDb where
  tz := ⟨0, [], yogaClock_spread⟩
  hours := []
  items := [yogaClass]
  resources := []
  slots := [yogaSlot]
  bookings := [yogaSpot "bk_1" "bo" .confirmed 1, yogaSpot "bk_2" "cy" .confirmed 2, yogaSpot "bk_3" "di" .waitlisted 3,
    yogaSpot "bk_4" "eve" .waitlisted 4, yogaSpot "bk_5" "fay" .waitlisted 5]
  facts _ := .new true 0
  laid _ := false

def yogaPolicy : ManagePolicy := ⟨true, 0⟩

/-- Bo cancels, and the first in line has the seat. -/
def yogaAfter : RosterDb := yogaRoster.cancelBooking 0 (yogaSpot "bk_1" "bo" .confirmed 1) yogaSlot

def yogaGus : NewBooking := ⟨"bk_6", "gus", none, 6, 0, false, false⟩

/-- Gus is put on the roster, last in line. -/
def yogaJoined : RosterDb := yogaAfter.addBooking (yogaSpot "bk_6" "gus" .waitlisted 6) (.new false 0)

/-- Cy cancels too. -/
def yogaDone : RosterDb := yogaJoined.cancelBooking 0 (yogaSpot "bk_2" "cy" .confirmed 2) yogaSlot

/-- Bo cancels between the reading of Gus's request and its run. -/
theorem yoga_run : ∃ ps, Run (Interleaved RosterStep) ⟨⟨yogaRoster, 0⟩, fun _ : Bool => .idle⟩ ps
    ⟨⟨yogaJoined, 0⟩, fun _ => .idle⟩ := by
  have hread : yogaRoster.readAdd 0 "slot_1" = .ok yogaSlot := rfl
  have hcancel : yogaRoster.cancelOnline yogaPolicy 0 "bk_1" = .ok yogaAfter := rfl
  have hadd : yogaAfter.runAdd yogaSlot yogaGus = .ok yogaJoined := rfl
  have hmember : yogaAfter.HasMember yogaSlot := ⟨yogaSlot, by decide, rfl, rfl⟩
  have hlast : Interleaved RosterStep ⟨⟨yogaAfter, 0⟩, Function.update (Function.update (fun _ : Bool => .idle) true
      (.adding yogaSlot yogaGus)) false .idle⟩ true ⟨⟨yogaJoined, 0⟩, Function.update (Function.update (Function.update
        (fun _ => .idle) true (.adding yogaSlot yogaGus)) false .idle) true .idle⟩ :=
    .from rfl (.runAdd hmember (by decide) hadd)
  have hplaces : Function.update (Function.update (Function.update (fun _ : Bool => RosterPlace.idle) true
      (.adding yogaSlot yogaGus)) false .idle) true .idle = fun _ => .idle := by
    funext p
    cases p <;> rfl
  rw [hplaces] at hlast
  exact ⟨_, .cons (.from (p := true) rfl (.readAdd yogaGus hread)) (.cons (.from (p := false) rfl (.cancelOnline hcancel))
    (.cons hlast .nil))⟩

/-- Then Cy's seat goes to the next in line. -/
theorem yoga_later : ∃ ps, Run (Interleaved RosterStep) ⟨⟨yogaJoined, 0⟩, fun _ : Bool => .idle⟩ ps
    ⟨⟨yogaDone, 0⟩, fun _ => .idle⟩ := by
  have hcancel : yogaJoined.cancelOnline yogaPolicy 0 "bk_2" = .ok yogaDone := rfl
  have hstep := Interleaved.from (w := ⟨⟨yogaJoined, 0⟩, fun _ : Bool => RosterPlace.idle⟩) (p := false) rfl
    (RosterStep.cancelOnline hcancel)
  rw [Function.update_eq_self] at hstep
  exact ⟨_, Run.cons hstep .nil⟩

theorem yogaRoster_rows : RosterRows yogaRoster := by
  refine ⟨by decide, by decide, fun b hb => ⟨yogaSlot, List.mem_singleton_self _, ?_⟩, fun s hs => ?_⟩
  · simp only [yogaRoster, List.mem_cons, List.not_mem_nil, or_false] at hb
    rcases hb with rfl | rfl | rfl | rfl | rfl <;> rfl
  · obtain rfl := List.mem_singleton.1 hs
    decide

theorem yogaRoster_seated : Seated yogaRoster 0 none := by
  constructor
  · intro s hs
    obtain rfl := List.mem_singleton.1 hs
    decide
  · intro s hs _ _ _
    obtain rfl := List.mem_singleton.1 hs
    decide

/-- After the cancel the class is full, and three wait. -/
theorem yoga_fair : Seated yogaJoined 0 none ∧ yogaJoined.taken "slot_1" = 2 ∧ yogaJoined.waiting "slot_1" = 3 := by
  obtain ⟨ps, hrun⟩ := yoga_run
  exact ⟨classes_fair (fun _ => rfl) yogaRoster_rows yogaRoster_seated hrun, by decide, by decide⟩

/-- Gus, who came in the run, has no seat after it, since Fay still waits for hers. -/
theorem yoga_in_turn : yogaSpot "bk_6" "gus" .waitlisted 6 ∈ yogaDone.bookings ∧
    (yogaSpot "bk_6" "gus" .waitlisted 6).takes "slot_1" = false := by
  obtain ⟨ps, hrun⟩ := yoga_run
  obtain ⟨qs, hlater⟩ := yoga_later
  have hfay : yogaSpot "bk_5" "fay" .waitlisted 5 ∈ yogaDone.bookings := by decide
  have hgus : yogaSpot "bk_6" "gus" .waitlisted 6 ∈ yogaDone.bookings := by decide
  have hturn := seated_in_turn (fun _ => rfl) yogaRoster_rows yogaRoster_seated hrun hlater
    (List.mem_singleton_self yogaSlot) (List.mem_singleton_self yogaSlot) rfl ⟨by decide, by decide, rfl, by decide⟩
    (a := yogaSpot "bk_5" "fay" .waitlisted 5) (b := yogaSpot "bk_6" "gus" .waitlisted 6) (by decide) (by decide)
    (by decide) (by decide) hfay hgus rfl rfl (by decide)
  exact ⟨hgus, hturn⟩

/-- Di is first in line, and has the seat that came free. -/
theorem yoga_first : yogaSpot "bk_3" "di" .confirmed 3 ∈
    ((yogaRoster.setStatus "bk_1" .canceled).fillFreedSeats 0 yogaSlot).bookings :=
  (seated_by_position (b := yogaSpot "bk_3" "di" .waitlisted 3) (k := 1)
    (setStatus_rows yogaRoster_rows "bk_1" .canceled) ⟨by decide, by decide, rfl, by decide⟩ (by decide) (by decide)
    (by decide)).2 (by decide)

end ClientBridge
