import ClientBridge.Business.Invites

/-!
# Invites keep the seat cap

Seats only become more under the business's lock, one at a time and after a count
(`seats_within_cap`).  That an invite is still open when it is accepted, and still an invite
when it is revoked, holds as long as accepts and revokes of one invite do not overlap and no
invite expires while its accept waits (`invites_sound`).
-/

namespace ClientBridge

open Runs

/-! ## Counting seats -/

section
variable {rows : List StaffRow} {now : Int}

theorem StaffRow.billed_mono {r : StaffRow} {now' : Int} (h : now ≤ now') (hb : r.billed now' = true) :
    r.billed now = true := by
  simp only [StaffRow.billed, decide_eq_true_eq] at hb ⊢
  refine ⟨hb.1, hb.2.imp (fun h => h) fun hi => ⟨hi.1, ?_⟩⟩
  omega

theorem billedSeats_le_of_le {now' : Int} (h : now ≤ now') (excluding : Option Id) :
    billedSeats rows now' excluding ≤ billedSeats rows now excluding := by
  refine List.countP_mono_left fun r _ hr => ?_
  rw [Bool.and_eq_true] at hr ⊢
  exact ⟨r.billed_mono h hr.1, hr.2⟩

theorem billedSeats_filter_le (c : StaffRow → Bool) (excluding : Option Id) :
    billedSeats (rows.filter c) now excluding ≤ billedSeats rows now excluding :=
  List.filter_sublist.countP_le

/-- One row changes, and the count by one at most. -/
theorem countP_set_le {id : Id} {f : StaffRow → StaffRow} (hn : (rows.map (·.id)).Nodup) (c : StaffRow → Bool) :
    (rows.map fun r => if r.id = id then f r else r).countP c ≤ rows.countP c + 1 := by
  induction rows with
  | nil => simp
  | cons r rows ih =>
    obtain ⟨hr, hrest⟩ := List.nodup_cons.1 (show (r.id :: rows.map (·.id)).Nodup from hn)
    rw [List.map_cons, List.countP_cons, List.countP_cons]
    by_cases hid : r.id = id
    · have hsame : (rows.map fun r => if r.id = id then f r else r) = rows := by
        refine (List.map_congr_left fun r' hr' => ?_).trans (List.map_id rows)
        have hne : r'.id ≠ id := fun h => hr (List.mem_map.2 ⟨r', hr', h.trans hid.symm⟩)
        rw [if_neg hne]
        rfl
      rw [hsame]
      split <;> split <;> omega
    · have := ih hrest
      rw [if_neg hid]
      omega

/-- A row counts for one seat. -/
theorem billedSeats_le_add (hn : (rows.map (·.id)).Nodup) (id : Id) :
    billedSeats rows now none ≤ billedSeats rows now (some id) + 1 := by
  induction rows with
  | nil => simp [billedSeats]
  | cons r rows ih =>
    obtain ⟨hr, hrest⟩ := List.nodup_cons.1 (show (r.id :: rows.map (·.id)).Nodup from hn)
    unfold billedSeats at ih ⊢
    rw [List.countP_cons, List.countP_cons]
    by_cases hid : r.id = id
    · have hsame : (rows.countP fun r => r.billed now && decide (none ≠ some r.id)) =
          rows.countP fun r => r.billed now && decide (some id ≠ some r.id) := by
        refine List.countP_congr fun r' hr' => ?_
        have hne : id ≠ r'.id := fun h => hr (List.mem_map.2 ⟨r', hr', (h.symm.trans hid.symm)⟩)
        simp [hne]
      rw [hsame]
      split <;> split <;> omega
    · have := ih hrest
      have hne : id ≠ r.id := fun h => hid h.symm
      simp only [ne_eq, reduceCtorEq, not_false_eq_true, decide_true, Bool.and_true, Option.some.injEq, hne]
      simp only [ne_eq, reduceCtorEq, not_false_eq_true, decide_true, Bool.and_true, Option.some.injEq] at this
      omega

end

namespace StaffStore

variable {π : Type} {s : StaffStore π}

theorem nodup_setRow (hn : (s.rows.map (·.id)).Nodup) (id : Id) {f : StaffRow → StaffRow} (hf : ∀ r, (f r).id = r.id) :
    ((s.setRow id f).rows.map (·.id)).Nodup := by
  have hids : (s.setRow id f).rows.map (·.id) = s.rows.map (·.id) := by
    show (s.rows.map fun r => if r.id = id then f r else r).map (·.id) = _
    rw [List.map_map]
    refine List.map_congr_left fun r _ => ?_
    show (if r.id = id then f r else r).id = r.id
    split
    · exact hf r
    · rfl
  rw [hids]
  exact hn

/-- The seats after one row changes, without those of that row or of another. -/
theorem seats_setRow_excluding (id : Id) {f : StaffRow → StaffRow} (hf : ∀ r, (f r).id = r.id) (now : Int) :
    billedSeats (s.setRow id f).rows now (some id) = billedSeats s.rows now (some id) := by
  show (s.rows.map fun r => if r.id = id then f r else r).countP _ = _
  rw [List.countP_map]
  refine List.countP_congr fun r _ => ?_
  by_cases hid : r.id = id
  · have hfid := hf r
    subst hid
    simp [hfid]
  · simp [hid]

theorem seats_deleteRow (id : Id) (now : Int) :
    billedSeats (s.deleteRow id).rows now none = billedSeats s.rows now (some id) := by
  show (s.rows.filter fun r => decide (r.id ≠ id)).countP _ = _
  rw [List.countP_filter]
  refine List.countP_congr fun r _ => ?_
  by_cases hid : r.id = id
  · subst hid
    simp
  · have hne : id ≠ r.id := fun h => hid h.symm
    simp [hid, hne]

end StaffStore

/-! ## The seat cap -/

variable {π : Type} {cap : Nat} {p q : π} {s s' : StaffStore π}

/-- The seats are within the cap; ids are given out once. -/
structure SeatsKept (cap : Nat) (s : StaffStore π) : Prop where
  seats : billedSeats s.rows s.clock none ≤ cap
  nodup : (s.rows.map (·.id)).Nodup
  known : ∀ r ∈ s.rows, r.id ∈ s.ids

/-- What a command knows of the seats where it is. -/
def SeatFree (cap : Nat) (p : π) (s : StaffStore π) : InvitePlace → Prop
  | .locked _ => s.lock = some p
  | .checked c => s.lock = some p ∧ billedSeats s.rows s.clock c.member + 1 ≤ cap
  | _ => True

/-- What a step of `p` leaves to the holder of the lock. -/
structure LeavesSeats (p : π) (s s' : StaffStore π) : Prop where
  lock : ∀ q, q ≠ p → s.lock = some q → s'.lock = some q
  seats : ∀ q, q ≠ p → s.lock = some q → ∀ excluding,
    billedSeats s'.rows s'.clock excluding ≤ billedSeats s.rows s.clock excluding

theorem LeavesSeats.seatFree (h : LeavesSeats p s s') (hne : q ≠ p) {x : InvitePlace} (hx : SeatFree cap q s x) :
    SeatFree cap q s' x := by
  cases x with
  | locked c => exact h.lock q hne hx
  | checked c =>
    refine ⟨h.lock q hne hx.1, ?_⟩
    have := h.seats q hne hx.1 c.member
    have := hx.2
    omega
  | idle => trivial
  | read c => trivial
  | revoking invite => trivial
  | removing member => trivial

theorem LeavesSeats.of_le (hl : s'.lock = s.lock)
    (h : ∀ excluding, billedSeats s'.rows s'.clock excluding ≤ billedSeats s.rows s.clock excluding) :
    LeavesSeats p s s' := ⟨fun _ _ hq => by rw [hl, hq], fun _ _ _ => h⟩

/-- The lock is taken, or its holder writes. -/
theorem LeavesSeats.of_own (h : s.lock = none ∨ s.lock = some p) : LeavesSeats p s s' := by
  have hno : ∀ q, q ≠ p → s.lock ≠ some q := by
    intro q hne hq
    obtain h | h := h
    · rw [h] at hq
      cases hq
    · exact hne (Option.some.inj (hq.symm.trans h))
  exact ⟨fun q hne hq => absurd hq (hno q hne), fun q hne hq => absurd hq (hno q hne)⟩

/-- A member who leaves frees a seat. -/
theorem seats_removed (id : Id) (excluding : Option Id) :
    billedSeats (s.setRow id fun r => { r with status := .removed }).rows s.clock excluding ≤
      billedSeats s.rows s.clock excluding := by
  show (s.rows.map fun r => if r.id = id then { r with status := .removed } else r).countP _ ≤ _
  rw [List.countP_map]
  refine List.countP_mono_left fun r _ hr => ?_
  by_cases hid : r.id = id
  · simp [hid, StaffRow.billed] at hr
  · simpa [hid] using hr

theorem InviteStep.leavesSeats [DecidableEq π] {x x' : InvitePlace} (hs : InviteStep cap p s x s' x') (hx : SeatFree cap p s x) :
    LeavesSeats p s s' := by
  cases hs with
  | tick h => exact .of_le rfl (billedSeats_le_of_le h)
  | create hr => exact .of_le rfl fun _ => le_refl _
  | resend hr hs => exact .of_le rfl fun _ => le_refl _
  | accept hr hs he hm => exact .of_le rfl fun _ => le_refl _
  | lock hl => exact .of_own (.inl hl)
  | check h => exact .of_le rfl fun _ => le_refl _
  | created h => exact .of_own (.inr hx.1)
  | resent hr => exact .of_own (.inr hx.1)
  | joined hr hu => exact .of_own (.inr hx.1)
  | rejoined hm => exact .of_own (.inr hx.1)
  | revoke hr hs => exact .of_le rfl fun _ => le_refl _
  | revoked => exact .of_le rfl (billedSeats_filter_le _)
  | remove hr hs ho => exact .of_le rfl fun _ => le_refl _
  | removed hr => exact .of_le rfl (seats_removed _)
  | rollback =>
    refine ⟨fun q hne hq => ?_, fun _ _ _ _ => le_refl _⟩
    show (if s.lock = some p then none else s.lock) = some q
    rw [if_neg (by rw [hq]; exact fun h => hne (Option.some.inj h)), hq]

theorem InviteStep.seatFree [DecidableEq π] {x x' : InvitePlace} (hs : InviteStep cap p s x s' x') (hx : SeatFree cap p s x) :
    SeatFree cap p s' x' := by
  cases hs with
  | lock hl => exact rfl
  | check h => exact ⟨hx, h⟩
  | _ => trivial

/-- A changed row takes the seat that was counted for it. -/
theorem SeatsKept.setRow (h : SeatsKept cap s) {id : Id} {f : StaffRow → StaffRow} (hf : ∀ r, (f r).id = r.id)
    (hfree : billedSeats s.rows s.clock (some id) + 1 ≤ cap) : SeatsKept cap (s.setRow id f) where
  seats := by
    have hn := s.nodup_setRow h.nodup id hf
    have hle : billedSeats (s.setRow id f).rows s.clock none ≤ billedSeats (s.setRow id f).rows s.clock (some id) + 1 :=
      billedSeats_le_add hn id
    rw [s.seats_setRow_excluding id hf] at hle
    exact hle.trans hfree
  nodup := s.nodup_setRow h.nodup id hf
  known := by
    intro r hr
    obtain ⟨r', hr', rfl⟩ := List.mem_map.1 hr
    show (if r'.id = id then f r' else r').id ∈ s.ids
    split
    · rw [hf]
      exact h.known r' hr'
    · exact h.known r' hr'

theorem SeatsKept.deleteRow (h : SeatsKept cap s) (id : Id) : SeatsKept cap (s.deleteRow id) where
  seats := (billedSeats_filter_le _ _).trans h.seats
  nodup := List.Nodup.sublist (List.filter_sublist.map _) h.nodup
  known r hr := h.known r (List.mem_filter.1 hr).1

/-- A row that was counted beside another, which goes. -/
theorem SeatsKept.rejoin (h : SeatsKept cap s) {id invite : Id} {f : StaffRow → StaffRow} (hf : ∀ r, (f r).id = r.id)
    (hfree : billedSeats s.rows s.clock (some invite) + 1 ≤ cap) :
    SeatsKept cap ((s.setRow id f).deleteRow invite) where
  seats := by
    show billedSeats ((s.setRow id f).deleteRow invite).rows s.clock none ≤ cap
    rw [StaffStore.seats_deleteRow]
    exact (countP_set_le h.nodup _).trans hfree
  nodup := List.Nodup.sublist (List.filter_sublist.map _) (s.nodup_setRow h.nodup id hf)
  known := by
    intro r hr
    obtain ⟨r', hr', rfl⟩ := List.mem_map.1 (List.mem_filter.1 hr).1
    show (if r'.id = id then f r' else r').id ∈ s.ids
    split
    · rw [hf]
      exact h.known r' hr'
    · exact h.known r' hr'

theorem SeatsKept.addRow (h : SeatsKept cap s) {r : StaffRow} (hid : r.id ∉ s.ids)
    (hfree : billedSeats s.rows s.clock none + 1 ≤ cap) : SeatsKept cap (s.addRow r) where
  seats := by
    show (s.rows ++ [r]).countP (fun r => r.billed s.clock && decide (none ≠ some r.id)) ≤ cap
    rw [List.countP_append]
    have hone : [r].countP (fun r => r.billed s.clock && decide (none ≠ some r.id)) ≤ 1 := List.countP_le_length
    unfold billedSeats at hfree
    omega
  nodup := by
    show ((s.rows ++ [r]).map (·.id)).Nodup
    rw [List.map_append, List.nodup_append]
    refine ⟨h.nodup, List.nodup_singleton _, ?_⟩
    intro a ha b hb hab
    obtain ⟨r', hr', rfl⟩ := List.mem_map.1 ha
    obtain rfl : b = r.id := by simpa using hb
    exact hid (hab ▸ h.known r' hr')
  known := by
    intro r' hr'
    obtain hr' | hr' := List.mem_append.1 (show r' ∈ s.rows ++ [r] from hr')
    · exact List.mem_cons_of_mem _ (h.known r' hr')
    · exact List.mem_singleton.1 hr' ▸ List.mem_cons_self

/-- The lock and the log count no seats. -/
theorem SeatsKept.of_eq (h : SeatsKept cap s) (hr : s'.rows = s.rows) (hi : s'.ids = s.ids) (hc : s'.clock = s.clock) :
    SeatsKept cap s' where
  seats := by rw [hr, hc]; exact h.seats
  nodup := by rw [hr]; exact h.nodup
  known := by rw [hr, hi]; exact h.known

theorem InviteStep.seatsKept [DecidableEq π] {x x' : InvitePlace} (hs : InviteStep cap p s x s' x') (h : SeatsKept cap s)
    (hx : SeatFree cap p s x) : SeatsKept cap s' := by
  cases hs with
  | tick hc => exact ⟨(billedSeats_le_of_le hc none).trans h.seats, h.nodup, h.known⟩
  | create hr => exact h
  | resend hr hs => exact h
  | accept hr hs he hm => exact h
  | lock hl => exact h.of_eq rfl rfl rfl
  | check hc => exact h
  | created hid => exact (h.addRow hid hx.2).of_eq rfl rfl rfl
  | @resent invite token r hr =>
    exact (h.setRow (f := fun r => { r with inviteToken := some token, invitedAt := s.clock })
      (fun _ => rfl) hx.2).of_eq rfl rfl rfl
  | @joined invite user role readAt r hr hu =>
    exact (h.setRow (f := fun r => { r with userId := some user, status := .active })
      (fun _ => rfl) hx.2).of_eq rfl rfl rfl
  | @rejoined invite user m role readAt r hm =>
    have hrejoin : SeatsKept cap ((s.setRow m fun r => { r with role := role, status := .active }).deleteRow invite) :=
      h.rejoin (fun _ => rfl) hx.2
    exact hrejoin.of_eq rfl rfl rfl
  | revoke hr hs => exact h
  | revoked => exact (h.deleteRow _).of_eq rfl rfl rfl
  | remove hr hs ho => exact h
  | @removed id r hr =>
    refine ⟨(seats_removed id none).trans h.seats, s.nodup_setRow h.nodup id fun _ => rfl, fun r hr => ?_⟩
    obtain ⟨r', hr', rfl⟩ := List.mem_map.1 hr
    show (if r'.id = id then { r' with status := .removed } else r').id ∈ s.ids
    split <;> exact h.known r' hr'
  | rollback => exact h.of_eq rfl rfl rfl

theorem seats_kept [DecidableEq π] : Kept (π := π) (InviteStep cap) (SeatsKept cap) (SeatFree cap) where
  store hs hI hx := hs.seatsKept hI hx
  own hs _ hx := hs.seatFree hx
  others hs hne _ hx hy := (hs.leavesSeats hx).seatFree hne hy

/-- A business without open commands, within its cap; invites have no user yet. -/
structure InvitesOpen (cap : Nat) (w : World π (StaffStore π) InvitePlace) : Prop where
  idle : ∀ p, w.place p = .idle
  kept : SeatsKept cap w.store
  log : w.store.log = []
  users : ∀ r ∈ w.store.rows, r.status = .invited → r.userId = none

/-- However the commands interleave. -/
theorem seats_within_cap [DecidableEq π] {w w' : World π (StaffStore π) InvitePlace} {ps : List π} (h0 : InvitesOpen cap w)
    (hr : Run (Interleaved (InviteStep cap)) w ps w') : billedSeats w'.store.rows w'.store.clock none ≤ cap := by
  have hk : Knows (SeatsKept cap) (SeatFree cap) w := ⟨h0.kept, fun p => by rw [h0.idle]; trivial⟩
  exact (seats_kept.run hr hk).1.seats

/-! ## Rows that change -/

namespace StaffStore

theorem row_id {id : Id} {r : StaffRow} (h : s.row id = some r) : r.id = id := by
  simpa using List.find?_some h

theorem row_addRow (r : StaffRow) {id : Id} (hid : r.id ≠ id) : (s.addRow r).row id = s.row id := by
  show (s.rows ++ [r]).find? _ = s.rows.find? _
  rw [List.find?_append, List.find?_singleton]
  simp [hid]

theorem row_setRow (id other : Id) {f : StaffRow → StaffRow} (hf : ∀ r, (f r).id = r.id) :
    (s.setRow id f).row other = if other = id then (s.row other).map f else s.row other := by
  show (s.rows.map fun r => if r.id = id then f r else r).find? _ = _
  rw [List.find?_map]
  have hids : ((fun r : StaffRow => decide (r.id = other)) ∘ fun r => if r.id = id then f r else r) =
      fun r => decide (r.id = other) := by
    funext r
    show decide ((if r.id = id then f r else r).id = other) = _
    split
    · rw [hf]
    · rfl
  rw [hids]
  show (s.row other).map _ = _
  cases hr : s.row other with
  | none => simp
  | some r =>
    have := row_id hr
    by_cases ho : other = id
    · simp [ho, this]
    · simp [ho, this]

theorem row_deleteRow (id other : Id) : (s.deleteRow id).row other = if other = id then none else s.row other := by
  show (s.rows.filter fun r => decide (r.id ≠ id)).find? _ = _
  rw [List.find?_filter]
  by_cases ho : other = id
  · rw [if_pos ho, List.find?_eq_none]
    intro r _ h
    simp only [decide_eq_true_eq] at h
    exact h.1 (h.2.trans ho)
  · rw [if_neg ho]
    refine List.find?_congr fun r _ => ?_
    by_cases hr : r.id = other
    · simp [hr, ho]
    · simp [hr]

end StaffStore

/-- A row that is an open invite. -/
def OpenInvite (s : StaffStore π) (id : Id) : Prop := ∃ r, s.row id = some r ∧ r.status = .invited

/-- An id that is no open invite's, and will be none's. -/
def NoInvite (s : StaffStore π) (id : Id) : Prop := id ∈ s.ids ∧ ∀ r, s.row id = some r → r.status ≠ .invited

/-- What a command knows of the rows it read. -/
def CommandKnows (s : StaffStore π) : InviteCommand → Prop
  | .accept invite _ member _ _ => OpenInvite s invite ∧ ∀ m, member = some m → NoInvite s m
  | _ => True

def InviteKnows (s : StaffStore π) : InvitePlace → Prop
  | .idle => True
  | .read c => CommandKnows s c
  | .locked c => CommandKnows s c
  | .checked c => CommandKnows s c
  | .revoking invite => invite ∈ s.ids ∧ ∀ r, s.row invite = some r → r.status = .invited
  | .removing id => NoInvite s id

/-- What a step does to the rows: those not touched keep their status, and no id becomes an
invite's again. -/
structure RowsMove (s s' : StaffStore π) (touched : Id → Prop) : Prop where
  kept : ∀ id r, ¬touched id → s.row id = some r → ∃ r', s'.row id = some r' ∧ r'.status = r.status
  noInvite : ∀ id ∈ s.ids, ∀ r', s'.row id = some r' → r'.status = .invited → OpenInvite s id
  gone : ∀ id ∈ s.ids, s.row id = none → s'.row id = none
  ids : ∀ id ∈ s.ids, id ∈ s'.ids

theorem RowsMove.of_eq (hr : s'.rows = s.rows) (hi : s'.ids = s.ids) : RowsMove s s' fun _ => False := by
  have hrow : ∀ id, s'.row id = s.row id := fun id => by rw [StaffStore.row, StaffStore.row, hr]
  refine ⟨fun id r _ h => ⟨r, by rw [hrow, h], rfl⟩, fun id _ r' h hs => ⟨r', by rw [← hrow, h], hs⟩,
    fun id _ h => by rw [hrow, h], fun id h => by rw [hi]; exact h⟩

section
variable {touched : Id → Prop}

theorem RowsMove.noInvite_kept (h : RowsMove s s' touched) {id : Id} (hn : NoInvite s id) : NoInvite s' id := by
  refine ⟨h.ids id hn.1, fun r' hr' hs => ?_⟩
  obtain ⟨r, hr, hsr⟩ := h.noInvite id hn.1 r' hr' hs
  exact hn.2 r hr hsr

theorem RowsMove.commandKnows (h : RowsMove s s' touched) {c : InviteCommand} (hc : CommandKnows s c)
    (hfree : ∀ id, touched id → ∀ user member role readAt, c ≠ .accept id user member role readAt) :
    CommandKnows s' c := by
  cases c with
  | create role token => trivial
  | resend invite token => trivial
  | accept invite user member role readAt =>
    obtain ⟨⟨r, hr, hs⟩, hm⟩ := hc
    obtain ⟨r', hr', hs'⟩ := h.kept invite r (fun ht => hfree invite ht user member role readAt rfl) hr
    exact ⟨⟨r', hr', hs'.trans hs⟩, fun m hm' => h.noInvite_kept (hm m hm')⟩

theorem RowsMove.knows (h : RowsMove s s' touched) {y : InvitePlace} (hy : InviteKnows s y)
    (hfree : ∀ id, touched id → ¬y.accepts id ∧ (y = .revoking id → s'.row id = none)) : InviteKnows s' y := by
  cases y with
  | idle => trivial
  | read c => exact h.commandKnows hy fun id ht user member role readAt he => (hfree id ht).1 (by rw [he]; rfl)
  | locked c => exact h.commandKnows hy fun id ht user member role readAt he => (hfree id ht).1 (by rw [he]; rfl)
  | checked c => exact h.commandKnows hy fun id ht user member role readAt he => (hfree id ht).1 (by rw [he]; rfl)
  | revoking invite =>
    refine ⟨h.ids invite hy.1, fun r' hr' => ?_⟩
    by_cases ht : touched invite
    · rw [(hfree invite ht).2 rfl] at hr'
      cases hr'
    · cases hr : s.row invite with
      | none =>
        rw [h.gone invite hy.1 hr] at hr'
        cases hr'
      | some r =>
        obtain ⟨r'', hr'', hs⟩ := h.kept invite r ht hr
        obtain rfl : r'' = r' := Option.some.inj (hr''.symm.trans hr')
        exact hs.trans (hy.2 r hr)
  | removing id => exact h.noInvite_kept hy

end

/-- A changed row that is no invite afterwards, or is one as before. -/
theorem RowsMove.setRow (id : Id) {f : StaffRow → StaffRow} (hf : ∀ r, (f r).id = r.id)
    (hno : ∀ r, (f r).status = .invited → r.status = .invited) : RowsMove s (s.setRow id f) (· = id) where
  kept other r hne hr := ⟨r, by rw [s.row_setRow id other hf, if_neg hne, hr], rfl⟩
  noInvite other _ r' hr' hs := by
    rw [s.row_setRow id other hf] at hr'
    split at hr'
    · obtain ⟨r, hr, rfl⟩ := Option.map_eq_some_iff.1 hr'
      exact ⟨r, hr, hno r hs⟩
    · exact ⟨r', hr', hs⟩
  gone other _ hr := by
    rw [s.row_setRow id other hf, hr]
    simp
  ids _ h := h

theorem RowsMove.deleteRow (s : StaffStore π) (id : Id) : RowsMove s (s.deleteRow id) (· = id) where
  kept other r hne hr := ⟨r, by rw [s.row_deleteRow, if_neg hne, hr], rfl⟩
  noInvite other _ r' hr' hs := by
    rw [s.row_deleteRow] at hr'
    split at hr'
    · cases hr'
    · exact ⟨r', hr', hs⟩
  gone other _ hr := by
    rw [s.row_deleteRow, hr]
    simp
  ids _ h := h

theorem RowsMove.addRow {r : StaffRow} (hid : r.id ∉ s.ids) (hknown : ∀ r ∈ s.rows, r.id ∈ s.ids) :
    RowsMove s (s.addRow r) fun _ => False := by
  have hrow : ∀ id ∈ s.ids, (s.addRow r).row id = s.row id := fun id h => s.row_addRow r fun he => hid (he ▸ h)
  refine ⟨fun id r' _ hr' => ⟨r', ?_, rfl⟩, fun id hi r' hr' hs => ⟨r', by rw [← hrow id hi, hr'], hs⟩,
    fun id hi hr' => by rw [hrow id hi, hr'], fun id h => List.mem_cons_of_mem _ h⟩
  have := hknown r' (List.mem_of_find?_eq_some hr')
  rw [StaffStore.row_id hr'] at this
  rw [hrow id this, hr']

theorem RowsMove.trans {s'' : StaffStore π} {t t' : Id → Prop} (h : RowsMove s s' t) (h' : RowsMove s' s'' t') :
    RowsMove s s'' fun id => t id ∨ t' id where
  kept id r hn hr := by
    obtain ⟨r', hr', hs'⟩ := h.kept id r (fun ht => hn (.inl ht)) hr
    obtain ⟨r'', hr'', hs''⟩ := h'.kept id r' (fun ht => hn (.inr ht)) hr'
    exact ⟨r'', hr'', hs''.trans hs'⟩
  noInvite id hi r'' hr'' hs'' := by
    obtain ⟨r', hr', hs'⟩ := h'.noInvite id (h.ids id hi) r'' hr'' hs''
    exact h.noInvite id hi r' hr' hs'
  gone id hi hr := h'.gone id (h.ids id hi) (h.gone id hi hr)
  ids id hi := h'.ids id (h.ids id hi)

theorem RowsMove.setRow_same (id : Id) {f : StaffRow → StaffRow} (hf : ∀ r, (f r).id = r.id)
    (hs : ∀ r, (f r).status = r.status) : RowsMove s (s.setRow id f) fun _ => False := by
  have h := RowsMove.setRow (s := s) id hf fun r hr => (hs r).symm.trans hr
  refine ⟨fun other r _ hr => ?_, h.noInvite, h.gone, h.ids⟩
  rw [s.row_setRow id other hf, hr]
  split
  · exact ⟨f r, rfl, hs r⟩
  · exact ⟨r, rfl, rfl⟩

/-! ## Invites found open -/

/-- What a command knows of when the invite it accepts was sent: it had not expired at the read. -/
def ReadTimely (s : StaffStore π) (x : InvitePlace) : Prop :=
  ∀ invite time, x.acceptsSince invite time →
    time ≤ s.clock ∧ ∀ r, s.row invite = some r → r.expired time = false

/-- Time passes, and a row was sent when it was before, or only now. -/
structure RowsSent (s s' : StaffStore π) : Prop where
  clock : s.clock ≤ s'.clock
  sent : ∀ id r', s'.row id = some r' → (∃ r, s.row id = some r ∧ r'.invitedAt = r.invitedAt) ∨ s.clock ≤ r'.invitedAt

theorem RowsSent.of_eq (hr : s'.rows = s.rows) (hc : s.clock ≤ s'.clock) : RowsSent s s' where
  clock := hc
  sent id r' hr' := by
    left
    rw [StaffStore.row, hr] at hr'
    exact ⟨r', hr', rfl⟩

theorem RowsSent.setRow (s : StaffStore π) (id : Id) {f : StaffRow → StaffRow} (hf : ∀ r, (f r).id = r.id)
    (hsent : ∀ r, (f r).invitedAt = r.invitedAt ∨ s.clock ≤ (f r).invitedAt) : RowsSent s (s.setRow id f) where
  clock := le_refl _
  sent other r' hr' := by
    rw [s.row_setRow id other hf] at hr'
    split at hr'
    · obtain ⟨r, hr, rfl⟩ := Option.map_eq_some_iff.1 hr'
      obtain h | h := hsent r
      · exact .inl ⟨r, hr, h⟩
      · exact .inr h
    · exact .inl ⟨r', hr', rfl⟩

theorem RowsSent.deleteRow (s : StaffStore π) (id : Id) : RowsSent s (s.deleteRow id) where
  clock := le_refl _
  sent other r' hr' := by
    rw [s.row_deleteRow] at hr'
    split at hr'
    · cases hr'
    · exact .inl ⟨r', hr', rfl⟩

theorem RowsSent.addRow (s : StaffStore π) {r : StaffRow} (hr : r.invitedAt = s.clock) : RowsSent s (s.addRow r) where
  clock := le_refl _
  sent id r' hr' := by
    change (s.rows ++ [r]).find? _ = some r' at hr'
    rw [List.find?_append, Option.or_eq_some_iff] at hr'
    obtain h | ⟨-, h⟩ := hr'
    · exact .inl ⟨r', h, rfl⟩
    · right
      obtain rfl := List.mem_singleton.1 (List.mem_of_find?_eq_some h)
      exact hr.ge

theorem RowsSent.trans {s'' : StaffStore π} (h : RowsSent s s') (h' : RowsSent s' s'') : RowsSent s s'' where
  clock := h.clock.trans h'.clock
  sent id r'' hr'' := by
    obtain ⟨r', hr', he⟩ | hlate := h'.sent id r'' hr''
    · obtain ⟨r, hr, he'⟩ | hlate := h.sent id r' hr'
      · exact .inl ⟨r, hr, he.trans he'⟩
      · exact .inr (he ▸ hlate)
    · exact .inr (h.clock.trans hlate)

/-- An invite sent again since it was read has not expired at the read either. -/
theorem RowsSent.timely (h : RowsSent s s') {x : InvitePlace} (hx : ReadTimely s x) : ReadTimely s' x := by
  intro invite time hacc
  obtain ⟨hclock, hopen⟩ := hx invite time hacc
  refine ⟨hclock.trans h.clock, fun r' hr' => ?_⟩
  obtain ⟨r, hr, he⟩ | hlate := h.sent invite r' hr'
  · have hr := hopen r hr
    unfold StaffRow.expired at hr ⊢
    rwa [he]
  · have httl : 0 ≤ inviteTtl := by decide
    unfold StaffRow.expired
    rw [decide_eq_false_iff_not]
    omega

theorem InvitePlace.acceptsSince_of_accepts {x : InvitePlace} {invite : Id} (h : x.accepts invite) :
    ∃ time, x.acceptsSince invite time := by
  unfold accepts at h
  split at h
  · exact ⟨_, h, rfl⟩
  · exact ⟨_, h, rfl⟩
  · exact ⟨_, h, rfl⟩
  · exact h.elim

section
variable [DecidableEq π] {x x' : InvitePlace}

theorem InviteStep.rowsSent (hs : InviteStep cap p s x s' x') : RowsSent s s' := by
  cases hs with
  | tick h => exact .of_eq rfl h
  | create hr => exact .of_eq rfl (le_refl _)
  | resend hr hs => exact .of_eq rfl (le_refl _)
  | accept hr hs he hm => exact .of_eq rfl (le_refl _)
  | lock hl => exact .of_eq rfl (le_refl _)
  | check h => exact .of_eq rfl (le_refl _)
  | @created role token id h =>
    exact (RowsSent.addRow s (r := ⟨id, role, .invited, none, some token, s.clock⟩) rfl).trans
      (.of_eq rfl (le_refl _))
  | @resent invite token r hr =>
    exact (RowsSent.setRow s (f := fun r => { r with inviteToken := some token, invitedAt := s.clock }) invite
      (fun _ => rfl) fun _ => .inr (le_refl _)).trans (.of_eq rfl (le_refl _))
  | @joined invite user role readAt r hr hu =>
    exact (RowsSent.setRow s (f := fun r => { r with userId := some user, status := .active }) invite
      (fun _ => rfl) fun _ => .inl rfl).trans (.of_eq rfl (le_refl _))
  | @rejoined invite user m role readAt r hm =>
    exact ((RowsSent.setRow s (f := fun r => { r with role := role, status := .active }) m
      (fun _ => rfl) fun _ => .inl rfl).trans (.deleteRow _ invite)).trans (.of_eq rfl (le_refl _))
  | revoke hr hs => exact .of_eq rfl (le_refl _)
  | @revoked invite => exact (RowsSent.deleteRow s invite).trans (.of_eq rfl (le_refl _))
  | remove hr hs ho => exact .of_eq rfl (le_refl _)
  | @removed id r hr =>
    exact .setRow s (f := fun r => { r with status := .removed }) id (fun _ => rfl) fun _ => .inl rfl
  | rollback => exact .of_eq rfl (le_refl _)

theorem InviteStep.timely_own (hs : InviteStep cap p s x s' x') (hx : ReadTimely s x) : ReadTimely s' x' := by
  have hidle : ReadTimely s' .idle := fun _ _ h => h.elim
  cases hs with
  | @accept invite r user hr hs he hm =>
    rintro _ _ ⟨rfl, rfl⟩
    -- `_pending` checked the invite's age at this very time
    refine ⟨le_refl _, fun r' hr' => ?_⟩
    obtain rfl := Option.some.inj (hr.symm.trans hr')
    exact he
  | @lock c hl =>
    have hsame : ReadTimely s (.locked c) := by cases c <;> exact hx
    have hrows : RowsSent s { s with lock := some p } := .of_eq rfl (le_refl _)
    exact hrows.timely hsame
  | @check c h => cases c <;> exact hx
  | create hr => exact fun _ _ h => h.elim
  | resend hr hs => exact fun _ _ h => h.elim
  | revoke hr hs => exact fun _ _ h => h.elim
  | remove hr hs ho => exact fun _ _ h => h.elim
  | _ => exact hidle

end

/-! ## Steps -/

/-- Invites have no user yet. -/
def InvitesUnused (s : StaffStore π) : Prop := ∀ r ∈ s.rows, r.status = .invited → r.userId = none

/-- What `y` has read does not overlap with what a step that commits an accept or a revoke did. -/
def Apart (s s' : StaffStore π) (x y : InvitePlace) : Prop :=
  s'.log ≠ s.log → (∀ invite, x.accepts invite → ¬y.accepts invite ∧ y ≠ .revoking invite) ∧
    ∀ invite, x = .revoking invite → ¬y.accepts invite

theorem StaffStore.row_of_mem (hn : (s.rows.map (·.id)).Nodup) {r : StaffRow} (hr : r ∈ s.rows) : s.row r.id = some r := by
  cases hf : s.row r.id with
  | none =>
    have := List.find?_eq_none.1 hf r hr
    simp at this
  | some r' =>
    have hid := row_id hf
    exact congrArg some (List.inj_on_of_nodup_map hn (List.mem_of_find?_eq_some hf) hr hid)

theorem NoInvite.of_active (hk : SeatsKept cap s) {id : Id} {r : StaffRow} (hr : s.row id = some r)
    (hs : r.status = .active) : NoInvite s id := by
  refine ⟨?_, fun r' hr' => ?_⟩
  · have := hk.known r (List.mem_of_find?_eq_some hr)
    rwa [StaffStore.row_id hr] at this
  · obtain rfl : r = r' := Option.some.inj (hr.symm.trans hr')
    rw [hs]
    exact fun h => by cases h

/-- The row a user has from before is no invite. -/
theorem NoInvite.of_member (hk : SeatsKept cap s) (hu : InvitesUnused s) {user : Id} {m : StaffRow}
    (hm : s.memberOf user = some m) : NoInvite s m.id := by
  have hmem := List.mem_of_find?_eq_some hm
  have huser : m.userId = some user := by simpa using List.find?_some hm
  refine ⟨hk.known m hmem, fun r hr hs => ?_⟩
  rw [StaffStore.row_of_mem hk.nodup hmem] at hr
  obtain rfl := Option.some.inj hr
  rw [hu m hmem hs] at huser
  cases huser

section
variable [DecidableEq π] {x x' : InvitePlace}

theorem InviteStep.knows_own (hs : InviteStep cap p s x s' x') (hk : SeatsKept cap s) (hu : InvitesUnused s)
    (hx : InviteKnows s x) : InviteKnows s' x' := by
  cases hs with
  | tick h => trivial
  | create hr => trivial
  | resend hr hs => trivial
  | @accept invite r user hr hs he hm =>
    refine ⟨⟨r, hr, hs⟩, fun m hm' => ?_⟩
    obtain ⟨m', hm'', rfl⟩ := Option.map_eq_some_iff.1 hm'
    exact .of_member hk hu hm''
  | lock hl =>
    have hmove : RowsMove s { s with lock := some p } fun _ => False := .of_eq rfl rfl
    exact hmove.commandKnows hx fun _ h => h.elim
  | check h => exact hx
  | created h => trivial
  | resent hr => trivial
  | joined hr hu => trivial
  | rejoined hm => trivial
  | @revoke invite r hr hs =>
    refine ⟨?_, fun r' hr' => Option.some.inj (hr.symm.trans hr') ▸ hs⟩
    have := hk.known r (List.mem_of_find?_eq_some hr)
    rwa [StaffStore.row_id hr] at this
  | revoked => trivial
  | remove hr hs ho => exact .of_active hk hr hs
  | removed hr => trivial
  | rollback => trivial

omit [DecidableEq π] in
/-- An id that is no invite's, and has a row, is neither accepted nor revoked by anyone. -/
theorem NoInvite.apart {id : Id} {r : StaffRow} (hn : NoInvite s id) (hr : s.row id = some r) {y : InvitePlace}
    (hy : InviteKnows s y) : ¬y.accepts id ∧ y ≠ .revoking id := by
  constructor
  · intro ha
    have hcommand : ∀ c, CommandKnows s c → ∀ i user member role readAt, c = .accept i user member role readAt →
        i = id → False := by
      rintro c hc i user member role readAt rfl rfl
      obtain ⟨⟨r', hr', hs⟩, -⟩ := hc
      exact hn.2 r' hr' hs
    unfold InvitePlace.accepts at ha
    split at ha
    next i user member role t => exact hcommand _ (show CommandKnows s (.accept i user member role t) from hy) _ _ _ _ _ rfl ha
    next i user member role t => exact hcommand _ (show CommandKnows s (.accept i user member role t) from hy) _ _ _ _ _ rfl ha
    next i user member role t => exact hcommand _ (show CommandKnows s (.accept i user member role t) from hy) _ _ _ _ _ rfl ha
    next => exact ha
  · rintro rfl
    exact hn.2 r hr (hy.2 r hr)

theorem InviteStep.knows_others (hs : InviteStep cap p s x s' x') (hk : SeatsKept cap s) (hx : InviteKnows s x)
    {y : InvitePlace} (hy : InviteKnows s y) (ha : Apart s s' x y) : InviteKnows s' y := by
  have hsame : ∀ t : StaffStore π, t.rows = s.rows → t.ids = s.ids → InviteKnows t y := fun t hr hi => by
    have hmove : RowsMove s t fun _ => False := .of_eq hr hi
    exact hmove.knows hy fun _ h => h.elim
  have hlog : ∀ e : InviteEvent, s.log ++ [e] ≠ s.log := fun e h => by
    have := congrArg List.length h
    simp at this
  cases hs with
  | tick h => exact hsame _ rfl rfl
  | create hr => exact hy
  | resend hr hs => exact hy
  | accept hr hs he hm => exact hy
  | lock hl => exact hsame _ rfl rfl
  | check h => exact hy
  | @created role token id h =>
    have hadd : InviteKnows (s.addRow ⟨id, role, .invited, none, some token, s.clock⟩) y :=
      (RowsMove.addRow h hk.known).knows hy fun _ h => h.elim
    exact (RowsMove.of_eq (s := s.addRow _) rfl rfl).knows hadd fun _ h => h.elim
  | @resent invite token r hr =>
    have hset : InviteKnows (s.setRow invite fun r => { r with inviteToken := some token, invitedAt := s.clock }) y :=
      (RowsMove.setRow_same (f := fun r => { r with inviteToken := some token, invitedAt := s.clock }) invite
        (fun _ => rfl) fun _ => rfl).knows hy fun _ h => h.elim
    exact (RowsMove.of_eq (s := s.setRow invite _) rfl rfl).knows hset fun _ h => h.elim
  | @joined invite user role readAt r hr hu =>
    obtain ⟨hacc, hrev⟩ := (ha (hlog _)).1 invite rfl
    have hset : InviteKnows (s.setRow invite fun r => { r with userId := some user, status := .active }) y :=
      (RowsMove.setRow (f := fun r => { r with userId := some user, status := .active }) invite (fun _ => rfl)
        fun _ h => StaffStatus.noConfusion h).knows hy fun id ht => ⟨ht ▸ hacc, fun h => absurd (ht ▸ h) hrev⟩
    exact (RowsMove.of_eq (s := s.setRow invite _) rfl rfl).knows hset fun _ h => h.elim
  | @rejoined invite user m role readAt r hm =>
    obtain ⟨hacc, hrev⟩ := (ha (hlog _)).1 invite rfl
    obtain ⟨hacc', hrev'⟩ := (hx.2 m rfl).apart hm hy
    have hmove := (RowsMove.setRow (s := s) (f := fun r => { r with role := role, status := .active }) m
      (fun _ => rfl) fun _ h => StaffStatus.noConfusion h).trans (RowsMove.deleteRow _ invite)
    have hset := hmove.knows hy fun id ht => by
      obtain ht | ht := ht
      · exact ⟨ht ▸ hacc', fun h => absurd (ht ▸ h) hrev'⟩
      · exact ⟨ht ▸ hacc, fun h => absurd (ht ▸ h) hrev⟩
    exact (RowsMove.of_eq (s := (s.setRow m _).deleteRow invite) rfl rfl).knows hset fun _ h => h.elim
  | revoke hr hs => exact hy
  | @revoked invite =>
    have hacc := (ha (hlog _)).2 invite rfl
    have hdel := (RowsMove.deleteRow s invite).knows hy fun id ht =>
      ⟨ht ▸ hacc, fun _ => by rw [s.row_deleteRow, if_pos ht]⟩
    exact (RowsMove.of_eq (s := s.deleteRow invite) rfl rfl).knows hdel fun _ h => h.elim
  | remove hr hs ho => exact hy
  | @removed id r hr =>
    obtain ⟨hacc, hrev⟩ := NoInvite.apart hx hr hy
    exact (RowsMove.setRow (f := fun r => { r with status := .removed }) id (fun _ => rfl)
      fun _ h => StaffStatus.noConfusion h).knows hy fun id ht => ⟨ht ▸ hacc, fun h => absurd (ht ▸ h) hrev⟩
  | rollback => exact hsame _ rfl rfl

omit [DecidableEq π] in
theorem InvitesUnused.setRow (hu : InvitesUnused s) (id : Id) {f : StaffRow → StaffRow}
    (hf : ∀ r, (f r).status = .invited → r.status = .invited ∧ (f r).userId = r.userId) :
    InvitesUnused (s.setRow id f) := by
  intro r hr hs
  obtain ⟨r', hr', rfl⟩ := List.mem_map.1 (show r ∈ s.rows.map fun r => if r.id = id then f r else r from hr)
  by_cases hid : r'.id = id
  · rw [if_pos hid] at hs ⊢
    obtain ⟨hs', huser⟩ := hf r' hs
    rw [huser]
    exact hu r' hr' hs'
  · rw [if_neg hid] at hs ⊢
    exact hu r' hr' hs

omit [DecidableEq π] in
theorem InvitesUnused.deleteRow (hu : InvitesUnused s) (id : Id) : InvitesUnused (s.deleteRow id) :=
  fun r hr => hu r (List.mem_filter.1 hr).1

theorem InviteStep.invitesUnused (hs : InviteStep cap p s x s' x') (hu : InvitesUnused s) : InvitesUnused s' := by
  cases hs with
  | tick h => exact hu
  | create hr => exact hu
  | resend hr hs => exact hu
  | accept hr hs he hm => exact hu
  | lock hl => exact hu
  | check h => exact hu
  | @created role token id h =>
    intro r hr hs
    obtain hr | hr := List.mem_append.1 (show r ∈ s.rows ++ [_] from hr)
    · exact hu r hr hs
    · rw [List.mem_singleton.1 hr]
  | @resent invite token r hr =>
    exact hu.setRow (f := fun r => { r with inviteToken := some token, invitedAt := s.clock }) invite
      fun _ h => ⟨h, rfl⟩
  | @joined invite user role readAt r hr hn =>
    exact hu.setRow (f := fun r => { r with userId := some user, status := .active }) invite
      fun _ h => StaffStatus.noConfusion h
  | @rejoined invite user m role readAt r hm =>
    have hset : InvitesUnused (s.setRow m fun r => { r with role := role, status := .active }) :=
      hu.setRow m fun _ h => StaffStatus.noConfusion h
    exact hset.deleteRow invite
  | revoke hr hs => exact hu
  | revoked => exact hu.deleteRow _
  | remove hr hs ho => exact hu
  | @removed id r hr =>
    exact hu.setRow (f := fun r => { r with status := .removed }) id fun _ h => StaffStatus.noConfusion h
  | rollback => exact hu

/-- What a step adds to the log is sound when the command still knows its rows, and an accepted
invite has not expired. -/
theorem InviteStep.sound (hs : InviteStep cap p s x s' x') (hx : InviteKnows s x)
    (he : s'.log ≠ s.log → ∀ invite, x.accepts invite → ∀ r, s.row invite = some r → r.expired s.clock = false)
    (hl : ∀ e ∈ s.log, e.Sound) : ∀ e ∈ s'.log, e.Sound := by
  have hadd : ∀ e : InviteEvent, e.Sound → ∀ e' ∈ s.log ++ [e], e'.Sound := by
    intro e h e' he'
    obtain he' | he' := List.mem_append.1 he'
    · exact hl e' he'
    · rw [List.mem_singleton.1 he']
      exact h
  have hnew : ∀ e : InviteEvent, s.log ++ [e] ≠ s.log := fun e h => by
    have := congrArg List.length h
    simp at this
  cases hs with
  | @joined invite user role readAt r hr hu =>
    obtain ⟨⟨r', hr', hs⟩, -⟩ := hx
    exact hadd _ ⟨r', hr', hs, he (hnew _) invite rfl r' hr'⟩
  | @rejoined invite user m role readAt r hm =>
    obtain ⟨⟨r', hr', hs⟩, -⟩ := hx
    exact hadd _ ⟨r', hr', hs, he (hnew _) invite rfl r' hr'⟩
  | revoked => exact hadd _ hx.2
  | _ => exact hl

end

/-! ## Runs -/

/-- A step, and an accept or a revoke that commits had its invite to itself. -/
def ExclusiveStep [DecidableEq π] (cap : Nat) (w : World π (StaffStore π) InvitePlace) (p : π)
    (w' : World π (StaffStore π) InvitePlace) : Prop :=
  Interleaved (InviteStep cap) w p w' ∧ Exclusive w p w'

/-- The seats and the rows as every command knows them, and a sound log. -/
structure InvitesKnown (cap : Nat) (w : World π (StaffStore π) InvitePlace) : Prop where
  seats : Knows (SeatsKept cap) (SeatFree cap) w
  users : InvitesUnused w.store
  rows : ∀ p, InviteKnows w.store (w.place p)
  timely : ∀ p, ReadTimely w.store (w.place p)
  sound : ∀ e ∈ w.store.log, e.Sound

theorem Exclusive.apart {w w' : World π (StaffStore π) InvitePlace} (h : Exclusive w p w') (hne : q ≠ p) :
    Apart w.store w'.store (w.place p) (w.place q) := by
  intro hlog
  obtain ⟨hacc, hrev, -⟩ := h hlog
  exact ⟨fun invite hi => hacc invite hi q hne, fun invite hi => hrev invite hi q hne⟩

/-- An accept that commits found its invite open at its read, and no invite expired since. -/
theorem Exclusive.open {w w' : World π (StaffStore π) InvitePlace} (h : Exclusive w p w')
    (ht : ReadTimely w.store (w.place p)) (hlog : w'.store.log ≠ w.store.log) (invite : Id)
    (hacc : (w.place p).accepts invite) : ∀ r, w.store.row invite = some r → r.expired w.store.clock = false := by
  obtain ⟨time, hsince⟩ := InvitePlace.acceptsSince_of_accepts hacc
  intro r hr
  exact (h hlog).2.2 invite time hsince r hr ((ht invite time hsince).2 r hr)

theorem invitesKnown_step [DecidableEq π] {w w' : World π (StaffStore π) InvitePlace} (h : InvitesKnown cap w)
    (hs : ExclusiveStep cap w p w') : InvitesKnown cap w' := by
  obtain ⟨hs, hex⟩ := hs
  have hseats := seats_kept.preserved hs h.seats
  have hapart : ∀ q, q ≠ p → Apart w.store w'.store (w.place p) (w.place q) := fun q hne => hex.apart hne
  have hopen := hex.open (h.timely p)
  cases hs with
  | step hs =>
    refine ⟨hseats, hs.invitesUnused h.users, fun q => ?_, fun q => ?_, hs.sound (h.rows p) hopen h.sound⟩
    · by_cases hq : q = p
      · subst hq
        show InviteKnows _ (Function.update w.place q _ q)
        rw [Function.update_self]
        exact hs.knows_own h.seats.1 h.users (h.rows q)
      · show InviteKnows _ (Function.update w.place p _ q)
        rw [Function.update_of_ne hq]
        exact hs.knows_others h.seats.1 (h.rows p) (h.rows q) (hapart q hq)
    · by_cases hq : q = p
      · subst hq
        show ReadTimely _ (Function.update w.place q _ q)
        rw [Function.update_self]
        exact hs.timely_own (h.timely q)
      · show ReadTimely _ (Function.update w.place p _ q)
        rw [Function.update_of_ne hq]
        exact hs.rowsSent.timely (h.timely q)

/-- With accepts and revokes of one invite apart, and no invite expiring under its accept, an
accepted invite was open, and what a revoke deletes is an invite. -/
theorem invites_sound [DecidableEq π] {w w' : World π (StaffStore π) InvitePlace} {ps : List π} (h0 : InvitesOpen cap w)
    (hr : Run (ExclusiveStep cap) w ps w') :
    billedSeats w'.store.rows w'.store.clock none ≤ cap ∧ ∀ e ∈ w'.store.log, e.Sound := by
  have hstart : InvitesKnown cap w := by
    refine ⟨⟨h0.kept, fun p => ?_⟩, h0.users, fun p => ?_, fun p => ?_, fun e he => ?_⟩
    · rw [h0.idle]
      trivial
    · rw [h0.idle]
      trivial
    · rw [h0.idle]
      exact fun _ _ h => h.elim
    · rw [h0.log] at he
      cases he
  have hk := hr.invariant (fun _ _ _ hi hs => invitesKnown_step hi hs) hstart
  exact ⟨hk.seats.1.seats, hk.sound⟩

/-! ## An invite accepted while it is revoked -/

/-- The owner and an invite for a colleague, a day old. -/
def studioRows : List StaffRow :=
  [⟨"owner", .owner, .active, some "ann", none, 0⟩, ⟨"seat", .staff, .invited, none, some "token", 0⟩]

def studioStore {π : Type} : StaffStore π := ⟨studioRows, ["seat", "owner"], none, inviteTtl / 7, []⟩

def studioWorld {π : Type} : World π (StaffStore π) InvitePlace := ⟨studioStore, fun _ => .idle⟩

theorem studioWorld_open {π : Type} : InvitesOpen (π := π) 3 studioWorld where
  idle _ := rfl
  kept := ⟨by show billedSeats studioRows (inviteTtl / 7) none ≤ 3; decide, by
    show (studioRows.map (·.id)).Nodup; decide, by show ∀ r ∈ studioRows, r.id ∈ ["seat", "owner"]; decide⟩
  log := rfl
  users := by show ∀ r ∈ studioRows, r.status = .invited → r.userId = none; decide

/-- The colleague reads the invite; a day passes, and the owner starts another one; the colleague
joins, and the owner's second invite takes the next seat. -/
theorem studio_joined : ∃ (w' : World Bool (StaffStore Bool) InvitePlace) (ps : List Bool),
    Run (ExclusiveStep 3) studioWorld ps w' ∧
    w'.store.log =
      [.accepted "seat" "seat" (some ⟨"seat", .staff, .invited, none, some "token", 0⟩) (2 * (inviteTtl / 7))] ∧
    (w'.store.row "desk").map (·.status) = some .invited ∧
    billedSeats w'.store.rows w'.store.clock none ≤ 3 ∧ ∀ e ∈ w'.store.log, e.Sound := by
  have quiet : ∀ {p : Bool} {w w' : World Bool (StaffStore Bool) InvitePlace}, w'.store.log = w.store.log →
      Exclusive w p w' := fun h hne => absurd h hne
  have hr : Run (ExclusiveStep 3) studioWorld [false, true, true, false, false, false, true, true, true] _ :=
    .cons ⟨.from rfl (@InviteStep.accept Bool _ 3 false studioStore "seat" _ "bob" rfl rfl (by decide)
      fun _ h => by cases h), quiet rfl⟩ <|
    .cons ⟨.from rfl (@InviteStep.tick Bool _ 3 true _ (2 * (inviteTtl / 7)) (by decide)), quiet rfl⟩ <|
    .cons ⟨.from rfl (@InviteStep.create Bool _ 3 true _ .staff "other" (by decide)), quiet rfl⟩ <|
    .cons ⟨.from rfl (@InviteStep.lock Bool _ 3 false _ _ rfl), quiet rfl⟩ <|
    .cons ⟨.from rfl (@InviteStep.check Bool _ 3 false _ _
      (by show billedSeats studioRows _ (some "seat") + 1 ≤ 3; decide)), quiet rfl⟩ <|
    .cons ⟨.from rfl (@InviteStep.joined Bool _ 3 false _ "seat" "bob" .staff _ _ rfl fun r hr hu => by
      have hnone : ∀ r ∈ studioRows, r.userId = some "bob" → r.id = "seat" := by decide
      exact hnone r hr hu), fun _ => by
        refine ⟨fun invite hi q hq => ?_, fun invite hi => InvitePlace.noConfusion hi, fun invite time hi r hr _ => ?_⟩
        · obtain rfl : q = true := by simpa using hq
          exact ⟨fun h => h.elim, fun h => InvitePlace.noConfusion h⟩
        · obtain ⟨rfl, rfl⟩ : "seat" = invite ∧ inviteTtl / 7 = time := hi
          obtain rfl := Option.some.inj (show some _ = some r from hr)
          decide⟩ <|
    .cons ⟨.from rfl (@InviteStep.lock Bool _ 3 true _ _ rfl), quiet rfl⟩ <|
    .cons ⟨.from rfl (@InviteStep.check Bool _ 3 true _ _ (by decide)), quiet rfl⟩ <|
    .cons ⟨.from rfl (@InviteStep.created Bool _ 3 true _ .staff "other" "desk" (by decide)), quiet rfl⟩ .nil
  obtain ⟨hseats, hsound⟩ := invites_sound studioWorld_open hr
  exact ⟨_, _, hr, rfl, rfl, hseats, hsound⟩

/-- The revoke reads the invite, the colleague accepts it, and the revoke deletes the member. -/
theorem revoke_deletes_member : ∃ (w' : World Bool (StaffStore Bool) InvitePlace) (ps : List Bool),
    InvitesOpen (π := Bool) 3 studioWorld ∧ Run (Interleaved (InviteStep 3)) studioWorld ps w' ∧
    .revoked "seat" (some ⟨"seat", .staff, .active, some "bob", some "token", 0⟩) ∈ w'.store.log ∧
    w'.store.row "seat" = none := by
  have hr : Run (Interleaved (InviteStep 3)) studioWorld [true, false, false, false, false, true] _ :=
    .cons (.from rfl (@InviteStep.revoke Bool _ 3 true studioStore "seat" _ rfl rfl)) <|
    .cons (.from rfl (@InviteStep.accept Bool _ 3 false _ "seat" _ "bob" rfl rfl (by decide) fun _ h => by cases h)) <|
    .cons (.from rfl (@InviteStep.lock Bool _ 3 false _ _ rfl)) <|
    .cons (.from rfl (@InviteStep.check Bool _ 3 false _ _ (by show billedSeats studioRows _ (some "seat") + 1 ≤ 3; decide))) <|
    .cons (.from rfl (@InviteStep.joined Bool _ 3 false _ "seat" "bob" .staff _ _ rfl fun r hr hu => by
      have hnone : ∀ r ∈ studioRows, r.userId = some "bob" → r.id = "seat" := by decide
      exact hnone r hr hu)) <|
    .cons (.from rfl (@InviteStep.revoked Bool _ 3 true _ "seat")) .nil
  exact ⟨_, _, studioWorld_open, hr, List.mem_append_right _ (List.mem_singleton.2 rfl), rfl⟩

end ClientBridge
