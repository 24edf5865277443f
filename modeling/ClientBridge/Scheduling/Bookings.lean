import ClientBridge.Scheduling.OnlineTimes

/-!
# Booking a time

`createBookingCore` checks a visit and gives it a slot, or a seat in the class session already there.  A client who
books a time the page lists gets it, with the member it is listed with (`book_listed`).
-/

namespace ClientBridge

open Calendar ZoneOffsets

/-! ## The core -/

namespace VisitSlot

/-- The windows of two slots share a time.  An empty window shares none. -/
def intersects (s t : VisitSlot) : Bool :=
  decide (s.startsAt < s.endsAt) && decide (t.startsAt < t.endsAt) && decide (s.startsAt < t.endsAt) &&
    decide (t.startsAt < s.endsAt)

end VisitSlot

def programEnrol : String := "a program is enrolled in as a whole; enrol from its schedule"

def notOffered : String := "that staff member doesn't offer this service"

def alreadyInClass : String := "you already have a booking for this class"

/-- What a booking online settles beside the schedule: whether the business's plan has lapsed, the minutes of the add-ons
chosen, and the client and the subject it is for, each with what it is refused for. -/
structure PublicBooking where
  lapsed : Bool
  addons : Except BookingError Nat
  booker : Except BookingError (Id × Option Id)

namespace ScheduleDb

variable (db : ScheduleDb)

/-- What the overlap constraints refuse: a member or a room in two live slots at once. -/
def excluded (s : VisitSlot) : Option BookingError :=
  if db.slots.any fun t => t.live && decide (t.id ≠ s.id) && decide (t.staffId = s.staffId) && s.intersects t then
    some ⟨overlapMessage, none⟩
  else if db.slots.any fun t => t.live && decide (t.id ≠ s.id) && decide (t.resourceId = s.resourceId) &&
      s.resourceId.isSome && s.intersects t then some ⟨resourceBusy, some "resource_busy"⟩
  else none

/-- The live session of a class at a start. -/
def openClassSlot (itemId staffId : Id) (startsAt : Int) : Option VisitSlot :=
  db.slots.find? fun s => decide (s.itemId = itemId) && decide (s.staffId = staffId) &&
    decide (s.startsAt = startsAt) && s.live

/-- Whether the subject, or the client's own seat when there is none, is already on the slot. -/
def hasSeat (slotId clientId : Id) (subjectId : Option Id) : Bool :=
  db.bookings.any fun b => decide (b.slotId = slotId) && !b.deleted && decide (b.status ≠ .canceled) &&
    match subjectId with
    | none => decide (b.clientId = clientId) && b.subjectId.isNone
    | some subject => decide (b.subjectId = some subject)

/-- A confirmed booking of a slot. -/
def seat (slot : VisitSlot) (booking : SeatBooking) : ScheduleDb × SeatBooking × VisitSlot :=
  ({ db with bookings := db.bookings ++ [booking] }, booking, slot)

/-- Create a confirmed booking. -/
def createBookingCore (item : ServiceItem) (staffId : Id) (startsAt : Int) (clientId : Id) (subjectId : Option Id)
    (dedupeClient : Bool) (extraMin : Nat) (chosen : Option Id) (slotId bookingId : Id) (now : Int) :
    Except BookingError (ScheduleDb × SeatBooking × VisitSlot) :=
  if item.isProgram then .error ⟨programEnrol, some "program_enrol"⟩
  else if !item.offers staffId then .error ⟨notOffered, some "service_not_offered"⟩
  else
    let endsAt := startsAt + minutesOf (item.visitMinutes extraMin)
    match db.blockingException staffId startsAt endsAt none with
    | some away => .error ⟨if away.staffId.isNone then closedMessage else awayMessage, none⟩
    | none =>
      if !withinHours (db.hoursOf staffId) db.tz startsAt endsAt then .error ⟨outsideHours, none⟩
      else
        match if item.isClass then db.openClassSlot item.id staffId startsAt else none with
        | some slot =>
          if dedupeClient && db.hasSeat slot.id clientId subjectId then .error ⟨alreadyInClass, none⟩
          else if db.seatsClosed slot then .error ⟨"that class is full", some "class_full"⟩
          else .ok (db.seat slot ⟨bookingId, slot.id, clientId, subjectId, .confirmed, false, now⟩)
        | none =>
          if db.conflictingSlot item staffId startsAt endsAt none then .error ⟨overlapMessage, none⟩
          else
            match db.chooseResource item startsAt endsAt none none chosen with
            | .error refusal => .error refusal
            | .ok held =>
              let slot : VisitSlot := ⟨slotId, item.id, staffId, held, startsAt, endsAt,
                if item.isClass then item.capacity.getD 1 else 1, .scheduled⟩
              match db.excluded slot with
              | some refusal => .error refusal
              | none => .ok ({ db with slots := db.slots ++ [slot] }.seat slot
                  ⟨bookingId, slot.id, clientId, subjectId, .confirmed, false, now⟩)

/-! ## Online -/

/-- The first member whose open times on the start's local day list it. -/
def offered (policy : BookingPolicy) (item : ServiceItem) (staffIds : List Id) (startsAt : Int) (exclude : Option Id)
    (minutes : Option Nat) (crew : List HoursRow) (hold : Option Id) : Option Id :=
  let day := dateOf (db.tz.localTime startsAt)
  let found := loadAvailability db (staffIds ++ crew.filterMap (·.staffId)) day day [item] hold.toList
  staffIds.find? fun m =>
    (found.openStarts item m day policy.stepMin exclude minutes crew hold).contains startsAt

/-- A client books a service online at a time, with one of these members, up to the deposit.  A program is enrolled in
instead. -/
def book (policy : BookingPolicy) (now : Int) (item : ServiceItem) (staff : List Id) (startsAt : Int)
    (data : PublicBooking) (slotId bookingId : Id)
    (enrol : Except BookingError (ScheduleDb × SeatBooking × VisitSlot)) :
    Except BookingError (ScheduleDb × SeatBooking × VisitSlot) :=
  if data.lapsed then .error ⟨"this business isn't available right now", some "business_unavailable"⟩
  else if item.durationMin.getD 0 = 0 then .error ⟨"that service has no duration and can't be booked", none⟩
  else if startsAt < policy.earliest now then
    .error ⟨"that time is too soon to book online", some "slot_unavailable"⟩
  else if policy.latest now < startsAt then
    .error ⟨"that time is too far ahead to book online", some "slot_unavailable"⟩
  else if item.isProgram then enrol
  else
    match data.addons with
    | .error refusal => .error refusal
    | .ok extraMin =>
      match db.offered policy item staff startsAt none (some (item.visitMinutes extraMin)) [] none with
      | none => .error ⟨"that time isn't open for booking; pick another", some "slot_unavailable"⟩
      | some member =>
        match data.booker with
        | .error refusal => .error refusal
        | .ok (clientId, subjectId) =>
          db.createBookingCore item member startsAt clientId subjectId true extraMin none slotId bookingId now

end ScheduleDb

/-! ## A listed time -/

/-- Slots that last, and whose services are rows. -/
structure ScheduleDb.WellFormed (db : ScheduleDb) : Prop where
  lasts : ∀ s ∈ db.slots, s.startsAt < s.endsAt
  services : ∀ s ∈ db.slots, (db.item? s.itemId).isSome

section
variable {db : ScheduleDb} {item : ServiceItem} {staffId : Id} {startsAt endsAt : Int}

theorem overlaps_of_times {s : VisitSlot} (hw : db.WellFormed) (hs : s ∈ db.slots) (hlive : s.live = true)
    (hstart : s.startsAt < endsAt) (hend : startsAt < s.endsAt) : db.overlaps s item startsAt endsAt = true := by
  obtain ⟨b, hb⟩ := Option.isSome_iff_exists.1 (hw.services s hs)
  have hnnb := before_nonneg b
  have hnni := before_nonneg item
  rw [ScheduleDb.overlaps, hlive, hb]
  simp only [VisitSlot.meets, Bool.true_and, Option.any_some, Bool.and_eq_true, decide_eq_true_eq]
  omega

/-- A live slot of the member in the way is an open session of the class at this very window. -/
theorem session_of_clear (hclear : db.conflictingSlot item staffId startsAt endsAt none = false) {s : VisitSlot}
    (hs : s ∈ db.slots) (hstaff : s.staffId = staffId) (hover : db.overlaps s item startsAt endsAt = true) :
    db.seatsClosed s = false ∧ s.itemId = item.id ∧ s.startsAt = startsAt ∧ s.endsAt = endsAt := by
  have h := List.any_eq_false.1 hclear s hs
  simp only [hstaff, hover, Bool.and_eq_true, Bool.or_eq_true, decide_eq_true_eq, true_and, ne_eq, reduceCtorEq,
    not_false_eq_true, and_true, decide_true, not_or, Bool.not_eq_true, not_not] at h
  exact ⟨h.1.1.1, h.1.1.2, h.1.2, h.2⟩

/-- No constraint refuses a window nothing overlaps. -/
theorem excluded_eq_none (hw : db.WellFormed) {s : VisitSlot}
    (hmember : ∀ t ∈ db.slots, t.staffId = s.staffId → db.overlaps t item s.startsAt s.endsAt = false)
    (hroom : ∀ r ∈ s.resourceId, db.held r item s.startsAt s.endsAt none = false) : db.excluded s = none := by
  have hover : ∀ t ∈ db.slots, t.live = true → s.intersects t = true → db.overlaps t item s.startsAt s.endsAt = true := by
    intro t ht hlive hmeet
    simp only [VisitSlot.intersects, Bool.and_eq_true, decide_eq_true_eq] at hmeet
    exact overlaps_of_times hw ht hlive hmeet.2 hmeet.1.2
  unfold ScheduleDb.excluded
  rw [if_neg, if_neg]
  · intro hany
    obtain ⟨t, ht, h⟩ := List.any_eq_true.1 hany
    simp only [Bool.and_eq_true, decide_eq_true_eq] at h
    obtain ⟨⟨⟨⟨hlive, -⟩, hres⟩, hsome⟩, hmeet⟩ := h
    obtain ⟨r, hr⟩ := Option.isSome_iff_exists.1 hsome
    have hfree := List.any_eq_false.1 (hroom r hr) t ht
    rw [hover t ht hlive hmeet, hres, hr] at hfree
    simp at hfree
  · intro hany
    obtain ⟨t, ht, h⟩ := List.any_eq_true.1 hany
    simp only [Bool.and_eq_true, decide_eq_true_eq] at h
    obtain ⟨⟨⟨hlive, -⟩, hstaff⟩, hmeet⟩ := h
    have hit := hover t ht hlive hmeet
    rw [hmember t ht hstaff] at hit
    cases hit

/-- The room picked is one of those the service and the visit have, and no slot holds it over the window. -/
theorem chooseResource_free {exclude hold chosen held : Option Id}
    (h : db.chooseResource item startsAt endsAt exclude hold chosen = .ok held) :
    ∀ r ∈ held, r ∈ hold.toList ++ db.poolOf item ∧ db.held r item startsAt endsAt exclude = false := by
  have hfree : ∀ r ∈ db.resourceFree (hold.toList ++ db.poolOf item) item startsAt endsAt exclude,
      r ∈ hold.toList ++ db.poolOf item ∧ db.held r item startsAt endsAt exclude = false := by
    intro r hr
    exact ⟨(List.mem_filter.1 hr).1, by simpa using (List.mem_filter.1 hr).2⟩
  unfold ScheduleDb.chooseResource at h
  dsimp only at h
  split at h
  · split at h
    · cases h
    · split at h
      · cases h
      · next hin =>
        obtain rfl := Except.ok.inj h
        intro r hr
        obtain rfl := Option.some.inj hr
        exact hfree _ (not_not.1 hin)
  · split at h
    · cases h
    · obtain rfl := Except.ok.inj h
      exact fun r hr => hfree r (List.mem_of_mem_head? hr)

theorem openClassSlot_mem {itemId : Id} {slot : VisitSlot} (h : db.openClassSlot itemId staffId startsAt = some slot) :
    slot ∈ db.slots ∧ slot.itemId = itemId ∧ slot.staffId = staffId ∧ slot.startsAt = startsAt ∧ slot.live = true := by
  have hsame := List.find?_some h
  simp only [Bool.and_eq_true, decide_eq_true_eq] at hsame
  exact ⟨List.mem_of_find?_eq_some h, hsame.1.1.1, hsame.1.1.2, hsame.1.2, hsame.2⟩

/-- Without a session to join, nothing of the member overlaps a clear window. -/
theorem member_clear (hclear : db.conflictingSlot item staffId startsAt endsAt none = false)
    (hnone : (if item.isClass then db.openClassSlot item.id staffId startsAt else none) = none)
    (htaken : item.isClass = false → ∀ s ∈ db.slots, s.live = true → s.itemId = item.id → db.seatsClosed s = true) :
    ∀ s ∈ db.slots, s.staffId = staffId → db.overlaps s item startsAt endsAt = false := by
  intro s hs hstaff
  by_contra hover
  obtain ⟨hopen, hid, hstart, -⟩ := session_of_clear hclear hs hstaff (by simpa using hover)
  have hlive : s.live = true := by
    rw [Bool.not_eq_false, ScheduleDb.overlaps, Bool.and_eq_true] at hover
    exact hover.1
  split at hnone
  · have := List.find?_eq_none.1 hnone s hs
    simp [hid, hstaff, hstart, hlive] at this
  · next hclass =>
    have := htaken (by simpa using hclass) s hs hlive hid
    rw [hopen] at this
    cases this

theorem joinsSession_of_clear
    (hmember : ∀ s ∈ db.slots, s.staffId = staffId → db.overlaps s item startsAt endsAt = false) :
    db.joinsSession item staffId startsAt endsAt none = false := by
  rw [ScheduleDb.joinsSession, List.any_eq_false]
  intro s hs hp
  simp only [Bool.and_eq_true, decide_eq_true_eq] at hp
  rw [hmember s hs hp.1.1.1] at hp
  exact absurd hp.1.1.2 (by simp)

/-- What a booking does when every check passes. -/
theorem createBookingCore_bookable (hw : db.WellFormed) (hprogram : item.isProgram = false)
    (hoffers : item.offers staffId = true) {extraMin : Nat} (hpos : 0 < item.visitMinutes extraMin)
    (hb : db.bookable item staffId none [] none startsAt (startsAt + minutesOf (item.visitMinutes extraMin)) = true)
    (htaken : item.isClass = false → ∀ s ∈ db.slots, s.live = true → s.itemId = item.id → db.seatsClosed s = true)
    (clientId : Id) (subjectId : Option Id) (slotId bookingId : Id) (now : Int) :
    (∃ db' booking slot, db.createBookingCore item staffId startsAt clientId subjectId true extraMin none slotId
        bookingId now = .ok (db', booking, slot) ∧ slot ∈ db'.slots ∧ booking ∈ db'.bookings ∧ booking.slotId = slot.id ∧
        slot.itemId = item.id ∧ slot.staffId = staffId ∧ slot.startsAt = startsAt ∧
        slot.endsAt = startsAt + minutesOf (item.visitMinutes extraMin)) ∨
    (db.createBookingCore item staffId startsAt clientId subjectId true extraMin none slotId bookingId now =
        .error ⟨alreadyInClass, none⟩ ∧
      ∃ slot ∈ db.slots, slot.itemId = item.id ∧ slot.staffId = staffId ∧ slot.startsAt = startsAt ∧
        db.hasSeat slot.id clientId subjectId = true) := by
  set endsAt := startsAt + minutesOf (item.visitMinutes extraMin) with hends
  have hlt : startsAt < endsAt := by
    rw [hends]
    unfold minutesOf microsPerMin microsPerSecond
    omega
  simp only [ScheduleDb.bookable, Bool.and_eq_true, Bool.or_eq_true] at hb
  obtain ⟨⟨hslot, -⟩, hroom⟩ := hb
  rw [slotProblem_isNone] at hslot
  simp only [Bool.and_eq_true, Option.isNone_iff_eq_none, Bool.not_eq_true'] at hslot
  obtain ⟨⟨haway, hhours⟩, hclear⟩ := hslot
  unfold ScheduleDb.createBookingCore
  rw [if_neg (by simp [hprogram]), if_neg (by simp [hoffers])]
  dsimp only
  rw [← hends, haway]
  dsimp only
  rw [hhours, if_neg (by simp)]
  cases hfound : (if item.isClass then db.openClassSlot item.id staffId startsAt else none) with
  | some slot =>
    -- a session of the class is there already
    split at hfound
    · obtain ⟨hmem, hid, hstaff, hstart, hlive⟩ := openClassSlot_mem hfound
      have hover : db.overlaps slot item startsAt endsAt = true :=
        overlaps_of_times hw hmem hlive (by omega) (hstart ▸ hw.lasts slot hmem)
      obtain ⟨hopen, -, -, hend⟩ := session_of_clear hclear hmem hstaff hover
      cases hseat : db.hasSeat slot.id clientId subjectId with
      | true =>
        refine .inr ⟨?_, slot, hmem, hid, hstaff, hstart, hseat⟩
        dsimp only
        rw [if_pos (by simp [hseat])]
      | false =>
        refine .inl ⟨{ db with bookings := db.bookings ++ [⟨bookingId, slot.id, clientId, subjectId, .confirmed, false, now⟩] },
          ⟨bookingId, slot.id, clientId, subjectId, .confirmed, false, now⟩, slot, ?_, hmem,
          List.mem_append_right _ (List.mem_singleton.2 rfl), rfl, hid, hstaff, hstart, hend⟩
        dsimp only
        rw [if_neg (by simp [hseat]), if_neg (by simp [hopen])]
        rfl
    · cases hfound
  | none =>
    -- nothing of the member overlaps the window, and one of the rooms is free
    have hmember := member_clear hclear hfound htaken
    rw [joinsSession_of_clear hmember] at hroom
    dsimp only
    rw [if_neg (by simp [hclear])]
    cases hchoice : db.chooseResource item startsAt endsAt none none none with
    | error e =>
      rw [hchoice] at hroom
      simp [Except.toOption] at hroom
    | ok held =>
      obtain ⟨slot, hslot⟩ : ∃ slot : VisitSlot, slot = ⟨slotId, item.id, staffId, held, startsAt, endsAt,
        if item.isClass then item.capacity.getD 1 else 1, .scheduled⟩ := ⟨_, rfl⟩
      have hfree : db.excluded slot = none := by
        rw [hslot]
        exact excluded_eq_none hw hmember fun r hr => (chooseResource_free hchoice r hr).2
      refine .inl ⟨{ db with
          slots := db.slots ++ [slot]
          bookings := db.bookings ++ [⟨bookingId, slotId, clientId, subjectId, .confirmed, false, now⟩] },
        ⟨bookingId, slotId, clientId, subjectId, .confirmed, false, now⟩, slot, ?_,
        List.mem_append_right _ (List.mem_singleton.2 rfl), List.mem_append_right _ (List.mem_singleton.2 rfl), ?_⟩
      · dsimp only
        rw [← hslot, hfree]
        rfl
      · rw [hslot]
        exact ⟨rfl, rfl, rfl, rfl, rfl⟩

end

/-! ## What a list gives -/

/-- A start keeps the first member who has it. -/
theorem find?_firstOf (pairs : List (Int × Id)) {p : Int × Id} (hp : p ∈ firstOf pairs) :
    pairs.find? (fun q => decide (q.1 = p.1)) = some p := by
  have hfold : ∀ (pairs seen : List (Int × Id)), p ∈ pairs.foldl (fun seen p =>
      if seen.any fun q => decide (q.1 = p.1) then seen else seen ++ [p]) seen →
      p ∈ seen ∨ (∀ q ∈ seen, q.1 ≠ p.1) ∧ pairs.find? (fun q => decide (q.1 = p.1)) = some p := by
    intro pairs
    induction pairs with
    | nil => exact fun seen h => .inl h
    | cons x pairs ih =>
      intro seen h
      rw [List.foldl_cons] at h
      split at h
      · next hany =>
        rcases ih seen h with h | ⟨hseen, hfind⟩
        · exact .inl h
        · refine .inr ⟨hseen, ?_⟩
          obtain ⟨q, hq, he⟩ := List.any_eq_true.1 hany
          have hx : x.1 ≠ p.1 := fun h => hseen q hq ((of_decide_eq_true he).trans h)
          rw [List.find?_cons_of_neg (by simpa using hx)]
          exact hfind
      · next hany =>
        rcases ih _ h with h | ⟨hseen, hfind⟩
        · rcases List.mem_append.1 h with h | h
          · exact .inl h
          · obtain rfl := List.mem_singleton.1 h
            rw [Bool.not_eq_true, List.any_eq_false] at hany
            exact .inr ⟨fun q hq he => hany q hq (decide_eq_true he), List.find?_cons_of_pos (by simp)⟩
        · refine .inr ⟨fun q hq => hseen q (List.mem_append_left _ hq), ?_⟩
          have hx : x.1 ≠ p.1 := hseen x (List.mem_append_right _ (List.mem_singleton.2 rfl))
          rw [List.find?_cons_of_neg (by simpa using hx)]
          exact hfind
  rcases hfold pairs [] hp with h | h
  · cases h
  · exact h.2

/-- The first member of those who have a start. -/
theorem find?_member (starts : Id → List Int) (staff : List Id) {start : Int} {member : Id}
    (h : (staff.flatMap fun m => (starts m).map fun s => (s, m)).find? (fun q => decide (q.1 = start)) =
      some (start, member)) : staff.find? (fun m => (starts m).contains start) = some member := by
  induction staff with
  | nil => cases h
  | cons m staff ih =>
    rw [List.flatMap_cons, List.find?_append] at h
    by_cases hm : start ∈ starts m
    · have hfirst : ((starts m).map fun s => (s, m)).find? (fun q => decide (q.1 = start)) = some (start, m) := by
        cases hfind : ((starts m).map fun s => (s, m)).find? (fun q => decide (q.1 = start)) with
        | none =>
          have := List.find?_eq_none.1 hfind (start, m) (List.mem_map_of_mem hm)
          simp at this
        | some q =>
          obtain ⟨s, -, rfl⟩ := List.mem_map.1 (List.mem_of_find?_eq_some hfind)
          obtain rfl : s = start := by simpa using List.find?_some hfind
          rfl
      rw [hfirst, Option.some_or] at h
      rw [List.find?_cons_of_pos (by simpa using hm)]
      exact congrArg (Option.map Prod.snd) h
    · have hnone : ((starts m).map fun s => (s, m)).find? (fun q => decide (q.1 = start)) = none := by
        rw [List.find?_eq_none]
        intro q hq he
        obtain ⟨s, hs, rfl⟩ := List.mem_map.1 hq
        exact hm (of_decide_eq_true he ▸ hs)
      rw [hnone, Option.none_or] at h
      rw [List.find?_cons_of_neg (by simpa using hm)]
      exact ih h

/-- A time on a day's list is the first member's who has it, and a step of the day they can book. -/
theorem listed_spec {db : ScheduleDb} {policy : BookingPolicy} {now : Int} {item : ServiceItem} {staff : List Id}
    {onDate : CivilDate} {minutes : Option Nat} (hsteady : SteadyOn db.tz onDate) {t : PublicSlot}
    (ht : t ∈ dayTimes db policy now item staff onDate minutes) (hopen : t.waitlist = false) :
    item.isProgram = false ∧ policy.inRange now t.startsAt = true ∧ dateOf (db.tz.localTime t.startsAt) = onDate ∧
      t.endsAt = t.startsAt + Availability.lengthOf item minutes ∧ t.staffId ∈ staff ∧
      db.offered policy item staff t.startsAt none minutes [] none = some t.staffId ∧
      db.bookable item t.staffId none [] none t.startsAt t.endsAt = true := by
  unfold dayTimes openTimes at ht
  split at ht
  · cases ht
  next hprogram =>
  dsimp only at ht
  obtain ⟨p, hp, rfl⟩ := List.mem_map.1 ht
  dsimp only at hopen ⊢
  -- it is not one of the full sessions
  have hseen := (List.mem_append.1 ((List.mergeSort_perm _ _).mem_iff.1 hp)).resolve_right fun hfull =>
    (List.any_eq_false.1 hopen) p hfull (decide_eq_true rfl)
  have hfind := find?_firstOf _ hseen
  have hfirst := find?_member (fun m => ((loadAvailability db staff onDate onDate [item] []).openStarts item m onDate
    policy.stepMin none minutes [] none).filter (policy.inRange now)) staff hfind
  have hmember : p.2 ∈ staff := List.mem_of_find?_eq_some hfirst
  have hlisted := List.find?_some hfirst
  simp only [List.contains_eq_mem, List.mem_filter, decide_eq_true_eq] at hlisted
  obtain ⟨hstarts, hrange⟩ := hlisted
  have hc : Covers staff onDate onDate [item] [] onDate item p.2 [] none :=
    ⟨le_rfl, le_rfl, by simp, hmember, by simp, by simp⟩
  rw [openStarts_eq hsteady hc (by intro row hrow; cases hrow)] at hstarts
  have hgrid := List.mem_filter.1 hstarts
  have hdate := (onGrid_of_gridStarts hsteady hgrid.1).shows
  refine ⟨by simpa using hprogram, hrange, hdate, rfl, hmember, ?_, hgrid.2⟩
  unfold ScheduleDb.offered
  dsimp only
  rw [hdate, List.filterMap_nil, List.append_nil, Option.toList_none, ← hfirst]
  congr 1
  funext m
  simp only [List.contains_eq_mem, List.mem_filter, hrange, and_true]

/-- Whoever books a time a day lists gets it, for its length and with the member it is listed with, unless it is a
seat in a class they have one in. -/
theorem book_listed {db : ScheduleDb} {policy : BookingPolicy} {now : Int} {item : ServiceItem} {staff : List Id}
    {onDate : CivilDate} {data : PublicBooking} {extraMin : Nat} {clientId : Id} {subjectId : Option Id}
    (hsteady : SteadyOn db.tz onDate) (hw : db.WellFormed) (hduration : 0 < item.durationMin.getD 0)
    (hoffers : ∀ m ∈ staff, item.offers m = true)
    (htaken : item.isClass = false → ∀ s ∈ db.slots, s.live = true → s.itemId = item.id → db.seatsClosed s = true)
    (hserving : data.lapsed = false) (haddons : data.addons = .ok extraMin)
    (hbooker : data.booker = .ok (clientId, subjectId))
    {t : PublicSlot} (ht : t ∈ dayTimes db policy now item staff onDate (some (item.visitMinutes extraMin)))
    (hopen : t.waitlist = false) (slotId bookingId : Id)
    (enrol : Except BookingError (ScheduleDb × SeatBooking × VisitSlot)) :
    (∃ db' booking slot, db.book policy now item staff t.startsAt data slotId bookingId enrol =
        .ok (db', booking, slot) ∧ slot ∈ db'.slots ∧ booking ∈ db'.bookings ∧ booking.slotId = slot.id ∧
        slot.itemId = item.id ∧ slot.staffId = t.staffId ∧ slot.startsAt = t.startsAt ∧ slot.endsAt = t.endsAt) ∨
    (db.book policy now item staff t.startsAt data slotId bookingId enrol = .error ⟨alreadyInClass, none⟩ ∧
      ∃ slot ∈ db.slots, slot.itemId = item.id ∧ slot.staffId = t.staffId ∧ slot.startsAt = t.startsAt ∧
        db.hasSeat slot.id clientId subjectId = true) := by
  obtain ⟨hprogram, hrange, -, hend, hmember, hoffered, hbookable⟩ := listed_spec hsteady ht hopen
  have hlength : Availability.lengthOf item (some (item.visitMinutes extraMin)) =
      minutesOf (item.visitMinutes extraMin) := rfl
  have hpos : 0 < item.visitMinutes extraMin := Nat.lt_of_lt_of_le hduration (Nat.le_add_right _ _)
  have hbook : db.book policy now item staff t.startsAt data slotId bookingId enrol =
      db.createBookingCore item t.staffId t.startsAt clientId subjectId true extraMin none slotId bookingId now := by
    simp only [BookingPolicy.inRange, Bool.and_eq_true, decide_eq_true_eq] at hrange
    unfold ScheduleDb.book
    rw [if_neg (by simp [hserving]), if_neg (by omega), if_neg (by omega), if_neg (by omega),
      if_neg (by simp [hprogram]), haddons]
    dsimp only
    rw [hoffered, hbooker]
  rw [hlength] at hend
  rw [hbook, hend]
  exact createBookingCore_bookable hw hprogram (hoffers _ hmember) hpos (hend ▸ hbookable) htaken clientId subjectId
    slotId bookingId now

/-- Half past eleven is listed with the first member, and booked with her. -/
theorem studio_booked :
    ∃ db' booking slot, studioDb.book halfHours (1782800000 * microsPerSecond) massageItem ["staff_ana", "staff_bea"]
      (1782919800 * microsPerSecond) ⟨false, .ok 0, .ok ("client_2", none)⟩ "slot_2" "booking_2"
      (.error ⟨programEnrol, none⟩) = .ok (db', booking, slot) ∧ slot ∈ db'.slots ∧ slot.staffId = "staff_ana" := by
  have ht : (⟨1782919800 * microsPerSecond, 1782923400 * microsPerSecond, "staff_ana", false⟩ : PublicSlot) ∈
      dayTimes studioDb halfHours (1782800000 * microsPerSecond) massageItem ["staff_ana", "staff_bea"] studioDay
        (some (massageItem.visitMinutes 0)) := by
    unfold dayTimes openTimes
    rw [if_neg (by decide)]
    exact List.mem_map.2 ⟨(1782919800 * microsPerSecond, "staff_ana"),
      (List.mergeSort_perm _ _).mem_iff.2 (by decide +kernel), by decide +kernel⟩
  rcases @book_listed _ _ _ _ _ _ ⟨false, .ok 0, .ok ("client_2", none)⟩ _ _ _ studioDay_steady
    ⟨by decide, by decide⟩ (by decide) (by decide) (fun _ => by decide) rfl rfl rfl _ ht rfl "slot_2" "booking_2"
    (.error ⟨programEnrol, none⟩) with ⟨db', booking, slot, hok, hslot, -, -, -, hstaff, -⟩ | ⟨-, hseat⟩
  · exact ⟨db', booking, slot, hok, hslot, hstaff⟩
  · exact absurd hseat (by decide)

end ClientBridge
