import ClientBridge.Scheduling.SlotWrites

/-!
# No double booking

Whatever transactions run side by side, no two live slots of a member, and no two of a room, come closer than their
services' buffers (`no_double_booking`).  An add-on or a series change must find its visits with members it locked:
it checks the one it finds, and another transaction may be booking them (`lengthen_strays`).
-/

namespace ClientBridge

open GuardedRows Runs

/-! ## What clashes -/

/-- What a live slot takes. -/
def slotUses (k : SlotLock) (s : VisitSlot) : Prop :=
  s.live = true ∧ match k with
    | .member m => s.staffId = m
    | .room r => s.resourceId = some r
    | .visit _ => False

/-- The windows of two slots, each with its service's buffers, share a time. -/
def tooClose (items : List ServiceItem) (a b : VisitSlot) : Prop :=
  ∃ i j, serviceOf items a = some i ∧ serviceOf items b = some j ∧
    a.startsAt - i.before < b.endsAt + j.after ∧ b.startsAt - j.before < a.endsAt + i.after

def slotClash (items : List ServiceItem) (k : SlotLock) (a b : VisitSlot) : Prop :=
  slotUses k a ∧ slotUses k b ∧ tooClose items a b

/-- A slot no wider than another that takes the same. -/
structure SlotCovers (c a : VisitSlot) : Prop where
  starts : c.startsAt = a.startsAt
  ends : a.endsAt ≤ c.endsAt
  staff : c.staffId = a.staffId
  room : c.resourceId = a.resourceId
  item : c.itemId = a.itemId
  live : a.live = true → c.live = true

theorem SlotCovers.uses {k : SlotLock} {a c : VisitSlot} (h : SlotCovers c a) (ha : slotUses k a) : slotUses k c := by
  refine ⟨h.live ha.1, ?_⟩
  have hk := ha.2
  cases k with
  | member m => exact h.staff.trans hk
  | room r => exact h.room.trans hk
  | visit i => exact hk

theorem slotClashing (items : List ServiceItem) : Clashing (slotClash items) slotUses SlotCovers where
  symm := by
    rintro k a b ⟨ha, hb, i, j, hi, hj, h1, h2⟩
    exact ⟨hb, ha, j, i, hj, hi, h2, h1⟩
  uses h := h.1
  covers := by
    rintro k a b c hcov ⟨ha, hb, i, j, hi, hj, h1, h2⟩
    have hstart := hcov.starts
    have hend := hcov.ends
    refine ⟨hcov.uses ha, hb, i, j, ?_, hj, by omega, by omega⟩
    rw [serviceOf, hcov.item]
    exact hi

/-! ## What a transaction knows -/

section
variable {π : Type}

/-- Slots under their own ids, which last and do not clash. -/
structure StoreOk (items : List ServiceItem) (s : SlotStore π) : Prop where
  free : Free (slotClash items) s.rows
  ids : ∀ i a, s.rows i = some a → a.id = i
  lasts : ∀ i a, s.rows i = some a → a.startsAt < a.endsAt

/-- The visits still to write are the transaction's, and so are the members they would go to. -/
structure TodoOk (items : List ServiceItem) (tz : BusinessZone) (p : π) (s : SlotStore π) (dirty : Id → Option VisitSlot)
    (cmd : SlotCommand) (todo : List (VisitSlot × VisitSlot)) : Prop where
  nodup : (todo.map fun q => q.2.id).Nodup
  visits : ∀ q ∈ todo, s.holder (.visit q.2.id) = some p
  clean : ∀ q ∈ todo, dirty q.2.id = none
  lasts : ∀ q ∈ todo, q.2.startsAt < q.2.endsAt
  rows : cmd.isBook = false → ∀ q ∈ todo, s.rows q.2.id = some q.2
  members : cmd.isBook = false → cmd.checks = true → ∀ q ∈ todo,
    s.holder (.member (cmd.target tz items q.1 q.2).staffId) = some p

/-- A visit whose window was checked: whoever of its member is too close starts when it does. -/
structure DraftOk (items : List ServiceItem) (p : π) (s : SlotStore π) (dirty : Id → Option VisitSlot) (cmd : SlotCommand)
    (item : ServiceItem) (draft : VisitSlot) (need : List SlotLock) : Prop where
  member : s.holder (.member draft.staffId) = some p
  visit : s.holder (.visit draft.id) = some p
  clean : dirty draft.id = none
  lasts : draft.startsAt < draft.endsAt
  service : serviceOf items draft = some item
  rooms : ∀ r ∈ cmd.rooms item draft, SlotLock.room r ∈ need ∨ s.holder (.room r) = some p
  clear : ∀ j, j ≠ draft.id → ∀ b ∈ overlay s.rows dirty j, slotClash items (.member draft.staffId) draft b →
    b.startsAt = draft.startsAt

def PhaseOk (items : List ServiceItem) (tz : BusinessZone) (p : π) (s : SlotStore π) (dirty : Id → Option VisitSlot) :
    SlotPhase → Prop
  | .idle => dirty = fun _ => none
  | .locking cmd read need => (dirty = fun _ => none) ∧ (read.map (·.id)).Nodup ∧
      ∀ k ∈ cmd.locks items read, k ∈ need ∨ s.holder k = some p
  | .moving cmd _ todo => TodoOk items tz p s dirty cmd todo
  | .placing cmd _ item draft need todo => TodoOk items tz p s dirty cmd todo ∧
      DraftOk items p s dirty cmd item draft need ∧ draft.id ∉ todo.map fun q => q.2.id

structure WriterOk (items : List ServiceItem) (tz : BusinessZone) (p : π) (s : SlotStore π) (x : SlotWriter) : Prop where
  free : Free (slotClash items) (overlay s.rows x.dirty)
  guarded : Guarded slotUses SlotCovers (fun k => s.holder k = some p) s.rows x.dirty
  ids : ∀ i a, x.dirty i = some a → a.id = i
  visits : ∀ i a, x.dirty i = some a → s.holder (.visit i) = some p
  lasts : ∀ i a, x.dirty i = some a → a.startsAt < a.endsAt
  phase : PhaseOk items tz p s x.dirty x.phase

theorem WriterOk.idle {items : List ServiceItem} {tz : BusinessZone} {p : π} {s : SlotStore π} (h : StoreOk items s) :
    WriterOk items tz p s .idle where
  free := h.free
  guarded := .nothing
  ids _ _ ha := by cases ha
  visits _ _ ha := by cases ha
  lasts _ _ ha := by cases ha
  phase := rfl

section
variable {items : List ServiceItem} {tz : BusinessZone} {p q : π} {s s' : SlotStore π} {x : SlotWriter}
  {dirty : Id → Option VisitSlot} {cmd : SlotCommand} {todo : List (VisitSlot × VisitSlot)}

/-! ## Locks -/

theorem TodoOk.keeps (h : TodoOk items tz p s dirty cmd todo) (hrows : s'.rows = s.rows)
    (hkeep : ∀ k, s.holder k = some p → s'.holder k = some p) : TodoOk items tz p s' dirty cmd todo where
  nodup := h.nodup
  visits q hq := hkeep _ (h.visits q hq)
  clean := h.clean
  lasts := h.lasts
  rows hb q hq := hrows ▸ h.rows hb q hq
  members hb hc q hq := hkeep _ (h.members hb hc q hq)

theorem DraftOk.keeps {item : ServiceItem} {draft : VisitSlot} {need : List SlotLock}
    (h : DraftOk items p s dirty cmd item draft need) (hrows : s'.rows = s.rows)
    (hkeep : ∀ k, s.holder k = some p → s'.holder k = some p) : DraftOk items p s' dirty cmd item draft need where
  member := hkeep _ h.member
  visit := hkeep _ h.visit
  clean := h.clean
  lasts := h.lasts
  service := h.service
  rooms r hr := (h.rooms r hr).imp_right (hkeep _)
  clear := hrows ▸ h.clear

/-- Locks that stay, and perhaps more of them, leave all a transaction knows. -/
theorem WriterOk.keeps (h : WriterOk items tz p s x) (hrows : s'.rows = s.rows)
    (hkeep : ∀ k, s.holder k = some p → s'.holder k = some p) : WriterOk items tz p s' x where
  free := hrows ▸ h.free
  guarded := hrows ▸ h.guarded.mono fun _ _ _ k _ hk => hkeep k hk
  ids := h.ids
  visits i a ha := hkeep _ (h.visits i a ha)
  lasts := h.lasts
  phase := by
    have hp := h.phase
    obtain ⟨dirty, phase⟩ := x
    cases phase with
    | idle => exact hp
    | locking cmd read need => exact ⟨hp.1, hp.2.1, fun k hk => (hp.2.2 k hk).imp_right (hkeep k)⟩
    | moving cmd read todo => exact TodoOk.keeps hp hrows hkeep
    | placing cmd read item draft need todo =>
      obtain ⟨htodo, hd, hnot⟩ := hp
      exact ⟨htodo.keeps hrows hkeep, hd.keeps hrows hkeep, hnot⟩

theorem lock_keeps {k : SlotLock} (hfree : s.canLock p k) (l : SlotLock) (hl : s.holder l = some q) :
    q = p ∨ (s.lock p k).holder l = some q := by
  by_cases hq : q = p
  · exact .inl hq
  · refine .inr ?_
    have hne : l ≠ k := by
      rintro rfl
      rcases hfree with hf | hf
      · rw [hf] at hl
        cases hl
      · rw [hf] at hl
        exact hq (Option.some.inj hl).symm
    show Function.update s.holder k (some p) l = some q
    rw [Function.update_of_ne hne]
    exact hl

theorem lock_own (k l : SlotLock) (hl : s.holder l = some p) : (s.lock p k).holder l = some p := by
  by_cases hk : l = k
  · subst hk
    exact Function.update_self _ _ _
  · show Function.update s.holder k (some p) l = some p
    rw [Function.update_of_ne hk]
    exact hl

theorem lock_self (k : SlotLock) : (s.lock p k).holder k = some p := Function.update_self _ _ _

theorem takeIds_own {ids : List Id} (k : SlotLock) (hk : s.holder k = some p) : (s.takeIds p ids).holder k = some p := by
  unfold SlotStore.takeIds
  dsimp only
  split
  · rfl
  · exact hk

theorem unlock_keeps [DecidableEq π] (hq : q ≠ p) (l : SlotLock) (hl : s.holder l = some q) : (s.unlock p).holder l = some q := by
  unfold SlotStore.unlock
  dsimp only
  rw [if_neg]
  · exact hl
  · rw [hl]
    exact fun h => hq (Option.some.inj h)

/-! ## Commits -/

def SlotStore.committed [DecidableEq π] (s : SlotStore π) (p : π) (dirty : Id → Option VisitSlot) : SlotStore π :=
  ({ s with rows := overlay s.rows dirty } : SlotStore π).unlock p

theorem WriterOk.store [DecidableEq π] (h : WriterOk items tz p s x) (hs : StoreOk items s) :
    StoreOk items (s.committed p x.dirty) where
  free := h.free
  ids i a ha := by
    change overlay s.rows x.dirty i = some a at ha
    cases hx : x.dirty i with
    | none => exact hs.ids i a ((overlay_of_none hx).symm.trans ha)
    | some b => exact h.ids i a (hx.trans ((overlay_of_some hx).symm.trans ha))
  lasts i a ha := by
    change overlay s.rows x.dirty i = some a at ha
    cases hx : x.dirty i with
    | none => exact hs.lasts i a ((overlay_of_none hx).symm.trans ha)
    | some b => exact h.lasts i a (hx.trans ((overlay_of_some hx).symm.trans ha))

section
variable {y : SlotWriter} {draft : VisitSlot} {item : ServiceItem} {need : List SlotLock}

/-- No two transactions write one visit. -/
theorem dirty_disjoint (hp : WriterOk items tz p s x) (hq : WriterOk items tz q s y) (hne : q ≠ p) (i : Id) :
    x.dirty i = none ∨ y.dirty i = none := by
  cases hx : x.dirty i with
  | none => exact .inl rfl
  | some a =>
    cases hy : y.dirty i with
    | none => exact .inr rfl
    | some b => exact absurd (Option.some.inj ((hq.visits i b hy).symm.trans (hp.visits i a hx))) hne

/-- A visit a transaction holds is not another's to write. -/
theorem WriterOk.none_of_visit (hp : WriterOk items tz p s x) (hne : q ≠ p) {i : Id}
    (hi : s.holder (.visit i) = some q) : x.dirty i = none := by
  cases hx : x.dirty i with
  | none => rfl
  | some a => exact absurd (Option.some.inj (hi.symm.trans (hp.visits i a hx))) hne

theorem TodoOk.commit [DecidableEq π] (h : TodoOk items tz q s dirty cmd todo) (hp : WriterOk items tz p s x) (hne : q ≠ p) :
    TodoOk items tz q (s.committed p x.dirty) dirty cmd todo where
  nodup := h.nodup
  visits r hr := unlock_keeps hne _ (h.visits r hr)
  clean := h.clean
  lasts := h.lasts
  rows hb r hr := by
    show overlay s.rows x.dirty r.2.id = some r.2
    rw [overlay_of_none (hp.none_of_visit hne (h.visits r hr))]
    exact h.rows hb r hr
  members hb hc r hr := unlock_keeps hne _ (h.members hb hc r hr)

/-- What another commits is of other members, or no wider than what it was. -/
theorem DraftOk.commit [DecidableEq π] (h : DraftOk items q s dirty cmd item draft need) (hp : WriterOk items tz p s x)
    (hne : q ≠ p) : DraftOk items q (s.committed p x.dirty) dirty cmd item draft need where
  member := unlock_keeps hne _ h.member
  visit := unlock_keeps hne _ h.visit
  clean := h.clean
  lasts := h.lasts
  service := h.service
  rooms r hr := (h.rooms r hr).imp_right fun hk => unlock_keeps hne _ hk
  clear := by
    intro j hj b hb hclash
    change b ∈ overlay (overlay s.rows x.dirty) dirty j at hb
    cases hy : dirty j with
    | some a =>
      rw [overlay_of_some hy] at hb
      exact h.clear j hj b ((overlay_of_some hy).trans hb) hclash
    | none =>
      rw [overlay_of_none hy] at hb
      cases hx : x.dirty j with
      | none =>
        rw [overlay_of_none hx] at hb
        exact h.clear j hj b ((overlay_of_none hy).trans hb) hclash
      | some a =>
        rw [overlay_of_some hx] at hb
        obtain rfl := Option.some.inj hb
        rcases hp.guarded j a hx with hheld | ⟨c, hc, hcov⟩
        · exact absurd (Option.some.inj (h.member.symm.trans (hheld _ hclash.2.1))) hne
        · have hclash' := (slotClashing items).symm ((slotClashing items).covers hcov ((slotClashing items).symm hclash))
          rw [← hcov.starts]
          exact h.clear j hj c ((overlay_of_none hy).trans hc) hclash'

theorem WriterOk.commit [DecidableEq π] (hq : WriterOk items tz q s y) (hp : WriterOk items tz p s x) (hne : q ≠ p) :
    WriterOk items tz q (s.committed p x.dirty) y where
  free := Free.overlay_overlay (slotClashing items) hp.free hq.free hp.guarded hq.guarded
    (fun k h h' => hne (Option.some.inj (h'.symm.trans h))) (dirty_disjoint hp hq hne)
  guarded := (hq.guarded.overlay fun i => (dirty_disjoint hp hq hne i).symm).mono
    fun _ _ _ k _ hk => unlock_keeps hne k hk
  ids := hq.ids
  visits i a ha := unlock_keeps hne _ (hq.visits i a ha)
  lasts := hq.lasts
  phase := by
    have hph := hq.phase
    obtain ⟨dirty, phase⟩ := y
    cases phase with
    | idle => exact hph
    | locking cmd read need =>
      exact ⟨hph.1, hph.2.1, fun k hk => (hph.2.2 k hk).imp_right fun h => unlock_keeps hne k h⟩
    | moving cmd read todo => exact TodoOk.commit hph hp hne
    | placing cmd read item draft need todo =>
      obtain ⟨htodo, hd, hnot⟩ := hph
      exact ⟨htodo.commit hp hne, hd.commit hp hne, hnot⟩

end

/-! ## Writes -/

/-- What an add-on or a series change finds again is with a member it locked. -/
def FindsMembers (cmd : SlotCommand) (read : List VisitSlot) (todo : List (VisitSlot × VisitSlot)) : Prop :=
  match cmd with
  | .lengthen _ minutes => 0 < minutes → ∀ q ∈ todo, q.2.staffId ∈ read.map (·.staffId)
  | .change _ none _ _ => ∀ q ∈ todo, q.2.staffId ∈ read.map (·.staffId)
  | _ => True

theorem target_id (cmd : SlotCommand) (read now : VisitSlot) : (cmd.target tz items read now).id = now.id := by
  cases cmd <;> rfl

/-- A checked visit lasts where it goes. -/
theorem target_lasts {read now : VisitSlot} (hchecks : cmd.checks = true) (hnow : now.startsAt < now.endsAt)
    (hpatch : ∀ i m a b c, cmd = .patch i m a b c →
      minVisit ≤ (cmd.target tz items read now).endsAt - (cmd.target tz items read now).startsAt) :
    (cmd.target tz items read now).startsAt < (cmd.target tz items read now).endsAt := by
  cases cmd with
  | book _ _ => exact hnow
  | patch i m a b c =>
    have h := hpatch i m a b c rfl
    have hmin : 0 < minVisit := by decide
    omega
  | lengthen i minutes =>
    have h : 0 < minutes := of_decide_eq_true hchecks
    have hpos : 0 < minutes * microsPerMin := Int.mul_pos h (by decide)
    simp only [SlotCommand.target]
    rw [if_neg (by omega)]
    omega
  | change is m w t =>
    simp only [SlotCommand.target]
    omega
  | reschedule i t =>
    simp only [SlotCommand.target]
    omega
  | cancel i => cases hchecks

variable (items tz) in
/-- An unchecked visit keeps its start and its member, and ends no later, but not before it starts. -/
theorem target_covers (read : VisitSlot) {now : VisitSlot} (hchecks : cmd.checks = false) (hnow : now.startsAt < now.endsAt) :
    SlotCovers now (cmd.target tz items read now) ∧
      (cmd.target tz items read now).startsAt < (cmd.target tz items read now).endsAt := by
  cases cmd with
  | lengthen i minutes =>
    have h : ¬0 < minutes := of_decide_eq_false hchecks
    have hneg : minutes * microsPerMin ≤ 0 := Int.mul_nonpos_of_nonpos_of_nonneg (by omega) (by decide)
    have hmin : 0 < minVisit := by decide
    simp only [SlotCommand.target]
    refine ⟨⟨rfl, ?_, rfl, rfl, rfl, id⟩, ?_⟩
    · dsimp only
      split <;> omega
    · split
      · omega
      · obtain rfl : minutes = 0 := by omega
        omega
  | cancel i => exact ⟨⟨rfl, le_rfl, rfl, rfl, rfl, fun h => by cases h⟩, hnow⟩
  | book _ _ => cases hchecks
  | patch _ _ _ _ _ => cases hchecks
  | change _ _ _ _ => cases hchecks
  | reschedule _ _ => cases hchecks

/-- Where a checked visit goes is a member the transaction locked. -/
theorem target_member {read : List VisitSlot} (hfound : FindsMembers cmd read todo) (hcmd : cmd.isBook = false)
    (hchecks : cmd.checks = true) {r : VisitSlot × VisitSlot} (hr : r ∈ todo) (hread : r.1 ∈ read)
    (hsame : cmd.unchanged r.1 r.2) : (cmd.target tz items r.1 r.2).staffId ∈ cmd.members read := by
  cases cmd with
  | book _ _ => cases hcmd
  | patch i m a b c => exact List.mem_flatMap.2 ⟨r.1, hread, List.mem_cons_of_mem _ (List.mem_singleton.2 rfl)⟩
  | lengthen i minutes => exact hfound (of_decide_eq_true hchecks) r hr
  | change is m w t =>
    cases m with
    | none => exact List.mem_append_left _ (hfound r hr)
    | some m => exact List.mem_append_right _ (List.mem_singleton.2 rfl)
  | reschedule i t =>
    have hs : r.2.staffId = r.1.staffId := hsame
    exact List.mem_map.2 ⟨r.1, hread, hs.symm⟩
  | cancel i => cases hchecks

/-- Slots a transaction sees are under their own ids, and last. -/
theorem WriterOk.view (h : WriterOk items tz p s x) (hs : StoreOk items s) {i : Id} {a : VisitSlot}
    (ha : overlay s.rows x.dirty i = some a) : a.id = i ∧ a.startsAt < a.endsAt := by
  cases hx : x.dirty i with
  | none =>
    rw [overlay_of_none hx] at ha
    exact ⟨hs.ids i a ha, hs.lasts i a ha⟩
  | some b =>
    rw [overlay_of_some hx] at ha
    obtain rfl := Option.some.inj ha
    exact ⟨h.ids i b hx, h.lasts i b hx⟩

/-- Live slots too close overlap on the schedule that shows them. -/
theorem overlaps_of_tooClose {db : ScheduleDb} {view : Id → Option VisitSlot} (hshows : Shows items view db)
    {a b : VisitSlot} {item : ServiceItem} (hitem : serviceOf items a = some item) (hlive : b.live = true)
    (h : tooClose items a b) : db.overlaps b item a.startsAt a.endsAt = true := by
  obtain ⟨i, j, hi, hj, h1, h2⟩ := h
  obtain rfl := Option.some.inj (hitem.symm.trans hi)
  have hfound : db.item? b.itemId = some j := by
    rw [ScheduleDb.item?, hshows.items]
    exact hj
  rw [ScheduleDb.overlaps, hlive, hfound]
  simp only [VisitSlot.meets, Bool.true_and, Option.any_some, Bool.and_eq_true, decide_eq_true_eq]
  exact ⟨h2, h1⟩

theorem WriterOk.withPhase (h : WriterOk items tz p s x) {phase : SlotPhase} (hp : PhaseOk items tz p s x.dirty phase) :
    WriterOk items tz p s { x with phase := phase } where
  free := h.free
  guarded := h.guarded
  ids := h.ids
  visits := h.visits
  lasts := h.lasts
  phase := hp

theorem TodoOk.tail {r : VisitSlot × VisitSlot} (h : TodoOk items tz p s dirty cmd (r :: todo)) :
    TodoOk items tz p s dirty cmd todo where
  nodup := (List.nodup_cons.1 h.nodup).2
  visits q hq := h.visits q (List.mem_cons_of_mem _ hq)
  clean q hq := h.clean q (List.mem_cons_of_mem _ hq)
  lasts q hq := h.lasts q (List.mem_cons_of_mem _ hq)
  rows hb q hq := h.rows hb q (List.mem_cons_of_mem _ hq)
  members hb hc q hq := h.members hb hc q (List.mem_cons_of_mem _ hq)

/-- The rest of the visits are as they were once another is written. -/
theorem TodoOk.update {i : Id} {a : VisitSlot} (h : TodoOk items tz p s dirty cmd todo)
    (hi : i ∉ todo.map fun q => q.2.id) : TodoOk items tz p s (Function.update dirty i (some a)) cmd todo where
  nodup := h.nodup
  visits := h.visits
  clean q hq := by
    have hne : q.2.id ≠ i := fun he => hi (List.mem_map.2 ⟨q, hq, he⟩)
    rw [Function.update_of_ne hne]
    exact h.clean q hq
  lasts := h.lasts
  rows := h.rows
  members := h.members

/-- A row of the transaction's own visit, which clashes with nothing it sees. -/
theorem WriterOk.update {i : Id} {a : VisitSlot} {phase : SlotPhase} (h : WriterOk items tz p s x) (hid : a.id = i)
    (hvisit : s.holder (.visit i) = some p) (hlasts : a.startsAt < a.endsAt)
    (hclear : ∀ j, j ≠ i → ∀ b ∈ overlay s.rows x.dirty j, ∀ k, ¬slotClash items k a b)
    (hguarded : (∀ k, slotUses k a → s.holder k = some p) ∨ ∃ c ∈ s.rows i, SlotCovers c a)
    (hphase : PhaseOk items tz p s (Function.update x.dirty i (some a)) phase) :
    WriterOk items tz p s ⟨Function.update x.dirty i (some a), phase⟩ where
  free := h.free.update (slotClashing items) hclear
  guarded := h.guarded.update hguarded
  ids j b hb := by
    rcases update_eq_some hb with ⟨rfl, rfl⟩ | ⟨-, hb⟩
    · exact hid
    · exact h.ids j b hb
  visits j b hb := by
    rcases update_eq_some hb with ⟨rfl, rfl⟩ | ⟨-, hb⟩
    · exact hvisit
    · exact h.visits j b hb
  lasts j b hb := by
    rcases update_eq_some hb with ⟨rfl, rfl⟩ | ⟨-, hb⟩
    · exact hlasts
    · exact h.lasts j b hb
  phase := hphase

/-- A checked window is clear of the member's slots, but for those that start with it. -/
theorem clear_of_check {db : ScheduleDb} {item : ServiceItem} {draft : VisitSlot} (h : WriterOk items tz p s x)
    (hs : StoreOk items s) (hitem : serviceOf items draft = some item)
    (hshows : Shows items (overlay s.rows x.dirty) db)
    (hclear : db.conflictingSlot item draft.staffId draft.startsAt draft.endsAt (cmd.exclude draft.id) = false) :
    ∀ j, j ≠ draft.id → ∀ b ∈ overlay s.rows x.dirty j, slotClash items (.member draft.staffId) draft b →
      b.startsAt = draft.startsAt := by
  intro j hj b hb hclash
  have hid := (h.view hs hb).1
  obtain ⟨-, ⟨hlive, hstaff⟩, hclose⟩ := hclash
  have hmem : b ∈ db.slots := (hshows.slots b).2 (hid.symm ▸ hb)
  have hover := overlaps_of_tooClose hshows hitem hlive hclose
  have hexcl : cmd.exclude draft.id ≠ some b.id := by
    unfold SlotCommand.exclude
    split
    · simp
    · exact fun he => hj (hid.symm.trans (Option.some.inj he).symm)
  have hno := List.any_eq_false.1 hclear b hmem
  simp only [hstaff, hover, hexcl, Bool.and_eq_true, Bool.or_eq_true, decide_eq_true_eq, true_and, ne_eq,
    not_false_eq_true, and_true, decide_true, not_or, Bool.not_eq_true, not_not] at hno
  exact hno.1.2

/-- A row the rooms and the constraints take clashes with nothing the transaction sees. -/
theorem write_clear {db db' : ScheduleDb} {item : ServiceItem} {draft : VisitSlot} {rooms : Option Id}
    (h : WriterOk items tz p s x) (hs : StoreOk items s) (hd : DraftOk items p s x.dirty cmd item draft [])
    (hshows : Shows items (overlay s.rows x.dirty) db)
    (hroom : cmd.rooms item draft = [] ∧ rooms = none ∨ db.chooseResource item draft.startsAt draft.endsAt
      (cmd.exclude draft.id) draft.resourceId cmd.chosen = .ok rooms)
    (hshows' : Shows items (overlay s.rows x.dirty) db') (hexcluded : db'.excluded { draft with resourceId := rooms } = none) :
    ∀ j, j ≠ draft.id → ∀ b ∈ overlay s.rows x.dirty j, ∀ k,
      ¬slotClash items k { draft with resourceId := rooms } b := by
  intro j hj b hb k hclash
  obtain ⟨hid, hlasts⟩ := h.view hs hb
  obtain ⟨⟨hlive, hk⟩, ⟨hblive, hbk⟩, hclose⟩ := hclash
  cases k with
  | member m =>
    -- it starts with a slot of the member, which the constraint refuses
    obtain rfl : draft.staffId = m := hk
    have hstart := hd.clear j hj b hb ⟨⟨hlive, rfl⟩, ⟨hblive, hbk⟩, hclose⟩
    have hmem : b ∈ db'.slots := (hshows'.slots b).2 (hid.symm ▸ hb)
    have hdl := hd.lasts
    have hany : (db'.slots.any fun t => t.live && decide (t.id ≠ draft.id) && decide (t.staffId = draft.staffId) &&
        VisitSlot.intersects { draft with resourceId := rooms } t) = true := by
      refine List.any_eq_true.2 ⟨b, hmem, ?_⟩
      simp only [VisitSlot.intersects, Bool.and_eq_true, decide_eq_true_eq]
      exact ⟨⟨⟨hblive, hid.symm ▸ hj⟩, hbk⟩, ⟨⟨hdl, hlasts⟩, by omega⟩, by omega⟩
    unfold ScheduleDb.excluded at hexcluded
    rw [if_pos hany] at hexcluded
    cases hexcluded
  | room r =>
    have hres : rooms = some r := hk
    rcases hroom with ⟨-, hnone⟩ | hchoice
    · rw [hnone] at hres
      cases hres
    · have hfree := (chooseResource_free hchoice r hres).2
      have hmem : b ∈ db.slots := (hshows.slots b).2 (hid.symm ▸ hb)
      have hover := overlaps_of_tooClose hshows (show serviceOf items { draft with resourceId := rooms } = some item from
        hd.service) hblive hclose
      have hexcl : cmd.exclude draft.id ≠ some b.id := by
        unfold SlotCommand.exclude
        split
        · simp
        · exact fun he => hj (hid.symm.trans (Option.some.inj he).symm)
      have hno := List.any_eq_false.1 hfree b hmem
      have hbr : b.resourceId = some r := hbk
      simp only [hbr, hexcl, Bool.and_eq_true, ne_eq, not_false_eq_true, decide_true, true_and, and_true] at hno
      exact hno hover
  | visit i => exact hk

/-- A row whose member and room are locked is written. -/
theorem WriterOk.write {db db' : ScheduleDb} {item : ServiceItem} {draft : VisitSlot} {rooms : Option Id}
    {read : List VisitSlot} (h : WriterOk items tz p s x) (hs : StoreOk items s)
    (hphase : x.phase = .placing cmd read item draft [] todo) (hshows : Shows items (overlay s.rows x.dirty) db)
    (hroom : cmd.rooms item draft = [] ∧ rooms = none ∨ db.chooseResource item draft.startsAt draft.endsAt
      (cmd.exclude draft.id) draft.resourceId cmd.chosen = .ok rooms)
    (hshows' : Shows items (overlay s.rows x.dirty) db') (hexcluded : db'.excluded { draft with resourceId := rooms } = none) :
    WriterOk items tz p s
      ⟨Function.update x.dirty draft.id (some { draft with resourceId := rooms }), .moving cmd read todo⟩ := by
  have hph := h.phase
  rw [hphase] at hph
  obtain ⟨htodo, hd, hnot⟩ := hph
  have hkeys : ∀ k, slotUses k { draft with resourceId := rooms } → s.holder k = some p := by
    rintro k ⟨-, hk⟩
    cases k with
    | member m =>
      obtain rfl : draft.staffId = m := hk
      exact hd.member
    | room r =>
      have hres : rooms = some r := hk
      rcases hroom with ⟨-, hnone⟩ | hchoice
      · rw [hnone] at hres
        cases hres
      · have hmem := (chooseResource_free hchoice r hres).1
        refine (hd.rooms r ?_).resolve_left (by simp)
        rcases List.mem_append.1 hmem with hr | hr
        · exact List.mem_append_left _ (List.mem_append_left _ hr)
        · exact List.mem_append_right _ (List.mem_filter.1 hr).1
    | visit i => exact hk.elim
  exact h.update rfl hd.visit hd.lasts (write_clear h hs hd hshows hroom hshows' hexcluded) (.inl hkeys)
    (htodo.update hnot)

/-- A visit canceled or shortened is covered by what is committed. -/
theorem WriterOk.release {read : List VisitSlot} {r : VisitSlot × VisitSlot} (h : WriterOk items tz p s x)
    (hphase : x.phase = .moving cmd read (r :: todo)) (hchecks : cmd.checks = false) :
    WriterOk items tz p s
      ⟨Function.update x.dirty r.2.id (some (cmd.target tz items r.1 r.2)), .moving cmd read todo⟩ := by
  have hph := h.phase
  rw [hphase] at hph
  have hcmd : cmd.isBook = false := by cases cmd <;> first | rfl | cases hchecks
  have hr := List.mem_cons_self (a := r) (l := todo)
  have hrow := hph.rows hcmd r hr
  obtain ⟨hcov, hlasts⟩ := target_covers items tz r.1 hchecks (hph.lasts r hr)
  have hsee : overlay s.rows x.dirty r.2.id = some r.2 := (overlay_of_none (hph.clean r hr)).trans hrow
  have hclear : ∀ j, j ≠ r.2.id → ∀ b ∈ overlay s.rows x.dirty j, ∀ k,
      ¬slotClash items k (cmd.target tz items r.1 r.2) b := fun j hj b hb k hclash =>
    h.free r.2.id j hj.symm r.2 hsee b hb k ((slotClashing items).covers hcov hclash)
  exact h.update (target_id cmd r.1 r.2) (hph.visits r hr) hlasts hclear (.inr ⟨r.2, hrow, hcov⟩)
    (hph.tail.update (List.nodup_cons.1 hph.nodup).1)

/-! ## Steps -/

/-- What is read again is the transaction's, with the members it locked. -/
theorem TodoOk.of_reread {read : List VisitSlot} (hs : StoreOk items s) (hnodup : (read.map (·.id)).Nodup)
    (hlocks : ∀ k ∈ cmd.locks items read, s.holder k = some p) (hdirty : dirty = fun _ => none)
    (hsub : (todo.map (·.1)).Sublist read) (hrows : ∀ q ∈ todo, s.rows q.1.id = some q.2)
    (hsame : ∀ q ∈ todo, cmd.unchanged q.1 q.2) (hfound : FindsMembers cmd read todo) :
    TodoOk items tz p s dirty cmd todo := by
  have hid : ∀ q ∈ todo, q.2.id = q.1.id := fun q hq => hs.ids _ _ (hrows q hq)
  have hread : ∀ q ∈ todo, q.1 ∈ read := fun q hq => hsub.subset (List.mem_map.2 ⟨q, hq, rfl⟩)
  refine ⟨?_, fun q hq => ?_, fun q hq => ?_, fun q hq => hs.lasts _ _ (hrows q hq), fun _ q hq => ?_,
    fun hb hc q hq => ?_⟩
  · have heq : (todo.map fun q => q.2.id) = (todo.map (·.1)).map (·.id) := by
      rw [List.map_map]
      exact List.map_congr_left fun q hq => hid q hq
    rw [heq]
    exact hnodup.sublist (hsub.map _)
  · rw [hid q hq]
    refine hlocks _ (List.mem_append_right _ (List.mem_map.2 ⟨q.1.id, ?_, rfl⟩))
    exact List.mem_map.2 ⟨q.1, hread q hq, rfl⟩
  · rw [hdirty]
  · rw [hid q hq]
    exact hrows q hq
  · refine hlocks _ (List.mem_append_left _ (List.mem_append_left _ (List.mem_map.2 ⟨_, ?_, rfl⟩)))
    exact target_member hfound hb hc hq (hread q hq) (hsame q hq)

/-- Locks let go with a savepoint are none of those a booking's rows need. -/
theorem WriterOk.letsGo {read : List VisitSlot} {drafts : List VisitSlot} {chosen : Option Id} (h : WriterOk items tz p s x)
    (hgo : s.letsGo p x.dirty s') (htodo : TodoOk items tz p s x.dirty (.book drafts chosen) todo) :
    WriterOk items tz p s' { x with phase := .moving (.book drafts chosen) read todo } := by
  obtain ⟨hrows, hheld⟩ := hgo
  have hvisit : ∀ i, s.holder (.visit i) = some p → s'.holder (.visit i) = some p := by
    intro i hi
    rcases hheld (.visit i) with he | ⟨-, -, hno, -⟩
    · rw [he]
      exact hi
    · exact absurd rfl (hno i)
  refine ⟨hrows ▸ h.free, hrows ▸ h.guarded.mono fun i a ha k hu hk => ?_, h.ids, fun i a ha => hvisit i (h.visits i a ha),
    h.lasts, ⟨htodo.nodup, fun q hq => hvisit _ (htodo.visits q hq), htodo.clean, htodo.lasts, fun hb => absurd hb (by simp [SlotCommand.isBook]),
      fun hb => absurd hb (by simp [SlotCommand.isBook])⟩⟩
  rcases hheld k with he | ⟨-, -, -, hno⟩
  · show s'.holder k = some p
    rw [he]
    exact hk
  · have hrow := hno i a ha
    cases k with
    | member m => exact absurd (congrArg SlotLock.member hu.2.symm) hrow.1
    | room r => exact absurd rfl (hrow.2 r hu.2)
    | visit j => exact hu.2.elim

variable [DecidableEq π]

/-- A transaction's own step leaves it knowing what it must. -/
theorem SlotStep.own {x' : SlotWriter} (hstep : SlotStep items tz FindsMembers p s x s' x') (hs : StoreOk items s)
    (h : WriterOk items tz p s x) : WriterOk items tz p s' x' := by
  have hph := h.phase
  cases hstep with
  | start _ hphase _ _ hnodup =>
    rw [hphase] at hph
    exact h.withPhase ⟨hph, hnodup, fun k hk => .inl (List.mem_append_right _ hk)⟩
  | @lock cmd read k need hphase hfree =>
    rw [hphase] at hph
    have hk : WriterOk items tz p (s.lock p k) x := h.keeps rfl fun l hl => lock_own k l hl
    refine hk.withPhase ⟨hph.1, hph.2.1, fun l hl => ?_⟩
    rcases hph.2.2 l hl with hmem | hheld
    · rcases List.mem_cons.1 hmem with rfl | hmem
      · exact .inr (lock_self l)
      · exact .inl hmem
    · exact .inr (lock_own k l hheld)
  | reread hphase _ hsub hrows hsame hfound =>
    rw [hphase] at hph
    exact h.withPhase (TodoOk.of_reread hs hph.2.1 (fun k hk => (hph.2.2 k hk).resolve_left (by simp)) hph.1 hsub
      hrows hsame hfound)
  | @drafts drafts chosen hphase hnodup hnew =>
    rw [hphase] at hph
    have hk : WriterOk items tz p (s.takeIds p (drafts.map (·.id))) x := h.keeps rfl takeIds_own
    refine hk.withPhase ⟨?_, fun q hq => ?_, fun q hq => ?_, fun q hq => ?_, fun hb => absurd hb (by simp [SlotCommand.isBook]),
      fun hb => absurd hb (by simp [SlotCommand.isBook])⟩
    · rw [List.map_map]
      exact hnodup
    all_goals obtain ⟨d, hd, rfl⟩ := List.mem_map.1 hq
    · exact if_pos (List.mem_map.2 ⟨d.id, List.mem_map.2 ⟨d, hd, rfl⟩, rfl⟩)
    · rw [hph.1]
    · exact (hnew d hd).2.1
  | lockMember _ hfree => exact h.keeps rfl fun l hl => lock_own _ l hl
  | skip hphase =>
    rw [hphase] at hph
    exact h.withPhase hph.tail
  | refuse hphase hgo =>
    rcases hphase with hphase | hphase
    · rw [hphase] at hph
      exact h.letsGo hgo hph.tail
    · rw [hphase] at hph
      exact h.letsGo hgo hph.1
  | @check cmd read r todo item draft db hphase hchecks hdraft hmember hpatch _ hitem hshows _ hclear =>
    rw [hphase] at hph
    have hr := List.mem_cons_self (a := r) (l := todo)
    have hid : draft.id = r.2.id := by
      rw [hdraft]
      exact target_id cmd r.1 r.2
    have hheld : s.holder (.member draft.staffId) = some p := by
      cases hb : cmd.isBook with
      | true => exact hmember hb
      | false =>
        rw [hdraft]
        exact hph.members hb hchecks r hr
    have hlasts : draft.startsAt < draft.endsAt := by
      rw [hdraft]
      exact target_lasts hchecks (hph.lasts r hr) (hdraft ▸ hpatch)
    refine h.withPhase ⟨hph.tail, ⟨hheld, hid ▸ hph.visits r hr, hid ▸ hph.clean r hr, hlasts, hitem,
      fun k hk => .inl (List.mem_map.2 ⟨k, hk, rfl⟩), clear_of_check h hs hitem hshows hclear⟩, ?_⟩
    rw [hid]
    exact (List.nodup_cons.1 hph.nodup).1
  | @lockRoom cmd read item draft k need todo hphase hfree =>
    rw [hphase] at hph
    obtain ⟨htodo, hd, hnot⟩ := hph
    have hkeep : ∀ l, s.holder l = some p → (s.lock p k).holder l = some p := fun l hl => lock_own k l hl
    have hk : WriterOk items tz p (s.lock p k) x := h.keeps rfl hkeep
    have hdraft : DraftOk items p (s.lock p k) x.dirty cmd item draft (k :: need) := hd.keeps rfl hkeep
    refine hk.withPhase ⟨htodo.keeps rfl hkeep, { hdraft with rooms := fun r hr => ?_ }, hnot⟩
    rcases hd.rooms r hr with hmem | hheld
    · rcases List.mem_cons.1 hmem with he | hmem
      · exact .inr (he ▸ lock_self _)
      · exact .inl hmem
    · exact .inr (hkeep _ hheld)
  | write hphase hshows hroom hshows' hexcluded => exact h.write hs hphase hshows hroom hshows' hexcluded
  | release hphase hchecks _ => exact h.release hphase hchecks
  | commit _ => exact .idle (h.store hs)
  | abort => exact .idle ⟨hs.free, hs.ids, hs.lasts⟩

/-- A transaction's step leaves what the others know. -/
theorem SlotStep.others {x' y : SlotWriter} (hstep : SlotStep items tz FindsMembers p s x s' x')
    (h : WriterOk items tz p s x) (hne : q ≠ p) (hq : WriterOk items tz q s y) : WriterOk items tz q s' y := by
  have hlock : ∀ {k : SlotLock}, s.canLock p k → WriterOk items tz q (s.lock p k) y := fun hfree =>
    hq.keeps rfl fun l hl => (lock_keeps hfree l hl).resolve_left hne
  cases hstep with
  | start => exact hq
  | lock _ hfree => exact hlock hfree
  | reread => exact hq
  | drafts _ _ hnew =>
    refine hq.keeps rfl fun k hk => ?_
    unfold SlotStore.takeIds
    dsimp only
    rw [if_neg]
    · exact hk
    · intro hmem
      obtain ⟨i, hi, rfl⟩ := List.mem_map.1 hmem
      obtain ⟨d, hd, rfl⟩ := List.mem_map.1 hi
      rw [(hnew d hd).2.2.2] at hk
      cases hk
  | lockMember _ hfree => exact hlock hfree
  | skip => exact hq
  | refuse _ hgo =>
    refine hq.keeps hgo.1 fun k hk => ?_
    rcases hgo.2 k with he | ⟨hp, -⟩
    · rw [he]
      exact hk
    · exact absurd (Option.some.inj (hk.symm.trans hp)) hne
  | check => exact hq
  | lockRoom _ hfree => exact hlock hfree
  | write => exact hq
  | release => exact hq
  | commit _ => exact hq.commit h hne
  | abort => exact hq.keeps rfl fun k hk => unlock_keeps hne k hk

theorem SlotStep.store {x' : SlotWriter} (hstep : SlotStep items tz FindsMembers p s x s' x') (hs : StoreOk items s)
    (h : WriterOk items tz p s x) : StoreOk items s' := by
  cases hstep with
  | refuse _ hgo =>
    obtain ⟨hrows, -⟩ := hgo
    exact ⟨hrows ▸ hs.free, hrows ▸ hs.ids, hrows ▸ hs.lasts⟩
  | commit _ => exact h.store hs
  | _ => exact ⟨hs.free, hs.ids, hs.lasts⟩

theorem slotKept (items : List ServiceItem) (tz : BusinessZone) :
    Kept (SlotStep (π := π) items tz FindsMembers) (StoreOk items) (WriterOk items tz) where
  store hstep hs h := hstep.store hs h
  own hstep hs h := hstep.own hs h
  others hstep hne _ h hq := hstep.others h hne hq

end

end

/-! ## Runs -/

/-- The windows of two slots with their services' buffers are disjoint. -/
def SlotsApart (items : List ServiceItem) (a b : VisitSlot) : Prop :=
  ∀ i j, serviceOf items a = some i → serviceOf items b = some j →
    b.endsAt + j.after ≤ a.startsAt - i.before ∨ a.endsAt + i.after ≤ b.startsAt - j.before

/-- No member and no room is booked twice: live slots of one member, or of one room, are apart. -/
def NoDoubleBooking (items : List ServiceItem) (rows : Id → Option VisitSlot) : Prop :=
  ∀ i j a b, i ≠ j → rows i = some a → rows j = some b → a.live = true → b.live = true →
    (a.staffId = b.staffId ∨ a.resourceId.isSome = true ∧ a.resourceId = b.resourceId) → SlotsApart items a b

theorem noDoubleBooking_iff {items : List ServiceItem} {rows : Id → Option VisitSlot} :
    NoDoubleBooking items rows ↔ Free (slotClash items) rows := by
  constructor
  · intro h i j hij a ha b hb k hclash
    obtain ⟨⟨hlive, hk⟩, ⟨hblive, hbk⟩, x, y, hx, hy, h1, h2⟩ := hclash
    have hapart : SlotsApart items a b := by
      refine h i j a b hij ha hb hlive hblive ?_
      cases k with
      | member m =>
        have ha : a.staffId = m := hk
        exact .inl (ha.trans (Eq.symm hbk))
      | room r =>
        have ha : a.resourceId = some r := hk
        have hb : b.resourceId = some r := hbk
        exact .inr ⟨by rw [ha]; rfl, ha.trans hb.symm⟩
      | visit _ => exact hk.elim
    rcases hapart x y hx hy with h | h <;> omega
  · intro h i j a b hij ha hb hlive hblive hsame x y hx hy
    by_contra hnot
    rw [not_or, not_le, not_le] at hnot
    have hclose : tooClose items a b := ⟨x, y, hx, hy, by omega, by omega⟩
    rcases hsame with hstaff | ⟨hsome, hroom⟩
    · exact h i j hij a ha b hb (.member a.staffId) ⟨⟨hlive, rfl⟩, ⟨hblive, hstaff.symm⟩, hclose⟩
    · obtain ⟨r, hr⟩ := Option.isSome_iff_exists.1 hsome
      exact h i j hij a ha b hb (.room r) ⟨⟨hlive, hr⟩, ⟨hblive, hroom.symm.trans hr⟩, hclose⟩

/-- However transactions interleave, if add-ons and series changes find their visits with members they locked, no
member and no room is ever booked twice. -/
theorem no_double_booking {π : Type} [DecidableEq π] {items : List ServiceItem} {tz : BusinessZone}
    {w w' : World π (SlotStore π) SlotWriter} {ps : List π} (hidle : ∀ p, w.place p = .idle)
    (hids : ∀ i a, w.store.rows i = some a → a.id = i ∧ a.startsAt < a.endsAt)
    (hfree : NoDoubleBooking items w.store.rows) (hrun : Run (Interleaved (SlotStep items tz FindsMembers)) w ps w') :
    NoDoubleBooking items w'.store.rows := by
  have hs : StoreOk items w.store :=
    ⟨noDoubleBooking_iff.1 hfree, fun i a ha => (hids i a ha).1, fun i a ha => (hids i a ha).2⟩
  have hknows : Knows (StoreOk items) (WriterOk items tz) w := ⟨hs, fun p => (hidle p).symm ▸ .idle hs⟩
  exact noDoubleBooking_iff.2 ((slotKept items tz).run hrun hknows).1.free

/-! ### A salon -/

/-- Half an hour, and a quarter more to clean up. -/
def cutItem : ServiceItem where
  id := "item_cut"
  isClassKind := false
  durationMin := some 30
  bufferBeforeMin := 0
  bufferAfterMin := 15
  capacity := none
  sessionCount := none
  resourceIds := []
  staffIds := []

def cutVisit (id staffId : Id) (first last : Nat) : VisitSlot :=
  ⟨id, "item_cut", staffId, none, minutesOf first, minutesOf last, 1, .scheduled⟩

def slotRows (slots : List VisitSlot) (i : Id) : Option VisitSlot := slots.find? fun s => decide (s.id = i)

/-- A schedule of these slots. -/
def salonDb (slots : List VisitSlot) : ScheduleDb := ⟨⟨0, [], by decide⟩, [], [cutItem], [], slots, []⟩

theorem salon_shows {slots : List VisitSlot} (hnodup : (slots.map (·.id)).Nodup) {view : Id → Option VisitSlot}
    (hview : view = slotRows slots) : Shows [cutItem] view (salonDb slots) := by
  refine ⟨rfl, fun s => ?_⟩
  rw [hview, slotRows]
  constructor
  · intro hs
    cases hfind : slots.find? (fun t => decide (t.id = s.id)) with
    | none => simpa using List.find?_eq_none.1 hfind s hs
    | some t =>
      have hid : t.id = s.id := by simpa using List.find?_some hfind
      rw [List.inj_on_of_nodup_map hnodup (List.mem_of_find?_eq_some hfind) hs hid]
  · exact List.mem_of_find?_eq_some

theorem slotRows_some {slots : List VisitSlot} {i : Id} {a : VisitSlot} (h : slotRows slots i = some a) :
    a ∈ slots ∧ a.id = i :=
  ⟨List.mem_of_find?_eq_some h, by simpa using List.find?_some h⟩

theorem slotRows_shadow {a b : VisitSlot} (h : a.id = b.id) (slots : List VisitSlot) :
    slotRows (b :: a :: slots) = slotRows (b :: slots) := by
  funext i
  by_cases hi : b.id = i
  · rw [slotRows, slotRows, List.find?_cons_of_pos (by simpa using hi), List.find?_cons_of_pos (by simpa using hi)]
  · rw [slotRows, slotRows, List.find?_cons_of_neg (by simpa using hi), List.find?_cons_of_neg (by simpa [h] using hi),
      List.find?_cons_of_neg (by simpa using hi)]

theorem overlay_slotRows (slots : List VisitSlot) (s : VisitSlot) :
    overlay (slotRows slots) (Function.update (fun _ => none) s.id (some s)) = slotRows (s :: slots) := by
  funext i
  by_cases hi : i = s.id
  · subst hi
    rw [overlay_of_some (Function.update_self _ _ _), slotRows, List.find?_cons_of_pos (by simp)]
  · rw [overlay_of_none (Function.update_of_ne hi _ _), slotRows, slotRows, List.find?_cons_of_neg (by simpa using Ne.symm hi)]

def visitAna : VisitSlot := cutVisit "slot_1" "ana" 0 30
def visitBea : VisitSlot := cutVisit "slot_1" "bea" 0 30
def cutDraft : VisitSlot := cutVisit "slot_2" "bea" 60 90

def utc : BusinessZone := ⟨0, [], by decide⟩

section
variable {found : SlotCommand → List VisitSlot → List (VisitSlot × VisitSlot) → Prop} {holder : SlotLock → Option Nat}

/-- A transaction of the salon's on its own. -/
def Alone (found : SlotCommand → List VisitSlot → List (VisitSlot × VisitSlot) → Prop) (p : Nat)
    (a b : SlotStore Nat × SlotWriter) : Prop :=
  Relation.ReflTransGen (fun a b => SlotStep [cutItem] utc found p a.1 a.2 b.1 b.2) a b

theorem Alone.step {p : Nat} {a : SlotStore Nat × SlotWriter} {s s' : SlotStore Nat} {x x' : SlotWriter}
    (h : Alone found p a (s, x)) (hs : SlotStep [cutItem] utc found p s x s' x') : Alone found p a (s', x') :=
  Relation.ReflTransGen.tail h hs

variable (found holder) in
/-- A new cut is booked with bea. -/
theorem draft_booked (hmember : holder (.member "bea") = none) (hid : holder (.visit "slot_2") = none) :
    ∃ holder', Alone found 2 (⟨slotRows [visitBea], holder⟩, .idle) (⟨slotRows [cutDraft, visitBea], holder'⟩, .idle) := by
  set s : SlotStore Nat := ⟨slotRows [visitBea], holder⟩ with hs
  set s1 := s.takeIds 2 ["slot_2"] with hs1
  set s2 := s1.lock 2 (.member "bea") with hs2
  set cmd : SlotCommand := .book [cutDraft] none with hcmd
  have hshows : Shows [cutItem] (overlay (slotRows [visitBea]) fun _ => none) (salonDb [visitBea]) :=
    salon_shows (by decide) rfl
  have h0 : Alone found 2 (s, .idle) (s, ⟨fun _ => none, .locking cmd [] []⟩) :=
    Alone.step .refl (.start [] rfl (by simp) rfl .nil)
  have h1 : Alone found 2 (s, .idle) (s1, ⟨fun _ => none, .moving cmd [] [(cutDraft, cutDraft)]⟩) := by
    refine h0.step (@SlotStep.drafts _ _ _ _ _ _ _ _ [cutDraft] none rfl (by decide) fun d hd => ?_)
    obtain rfl := List.mem_singleton.1 hd
    exact ⟨rfl, by decide, rfl, hid⟩
  have h2 : Alone found 2 (s, .idle) (s2, ⟨fun _ => none, .moving cmd [] [(cutDraft, cutDraft)]⟩) :=
    h1.step (@SlotStep.lockMember _ _ _ _ _ _ _ _ [cutDraft] none [] (cutDraft, cutDraft) [] rfl (.inl hmember))
  have h3 : Alone found 2 (s, .idle) (s2, ⟨fun _ => none, .placing cmd [] cutItem cutDraft [] []⟩) :=
    h2.step (.check rfl rfl rfl (fun _ => lock_self _) (fun _ _ _ _ _ h => absurd h (by simp [hcmd])) (fun h => by cases h)
      (by decide) hshows (by decide) (by decide))
  have h4 : Alone found 2 (s, .idle) (s2, ⟨Function.update (fun _ => none) cutDraft.id (some cutDraft), .moving cmd [] []⟩) :=
    h3.step (.write rfl hshows (.inl ⟨rfl, rfl⟩) hshows (by decide))
  refine ⟨(s2.unlock 2).holder, ?_⟩
  rw [← overlay_slotRows]
  exact h4.step (.commit rfl)

end

/-- A cut booked an hour after another. -/
theorem cut_booked : ∃ (w' : World Nat (SlotStore Nat) SlotWriter) (ps : List Nat),
    Run (Interleaved (SlotStep [cutItem] utc FindsMembers)) ⟨⟨slotRows [visitBea], fun _ => none⟩, fun _ => .idle⟩ ps w' ∧
      w'.store.rows = slotRows [cutDraft, visitBea] ∧ NoDoubleBooking [cutItem] w'.store.rows := by
  obtain ⟨holder, hbooked⟩ := draft_booked FindsMembers (fun _ => none) rfl rfl
  set w : World Nat (SlotStore Nat) SlotWriter := ⟨⟨slotRows [visitBea], fun _ => none⟩, fun _ => .idle⟩
  obtain ⟨ps, hrun⟩ := Interleaved.block (w := w) (p := 2) rfl hbooked
  refine ⟨_, ps, hrun, rfl, no_double_booking (fun _ => rfl) (fun i a ha => ?_) (fun i j a b hij ha hb => ?_) hrun⟩
  · obtain ⟨hmem, hid⟩ := slotRows_some ha
    obtain rfl := List.mem_singleton.1 hmem
    exact ⟨hid, by decide⟩
  · have ha' := slotRows_some ha
    have hb' := slotRows_some hb
    obtain rfl := List.mem_singleton.1 ha'.1
    obtain rfl := List.mem_singleton.1 hb'.1
    exact absurd (ha'.2.symm.trans hb'.2) hij

section
variable {holder : SlotLock → Option Nat}

/-! ### A visit moved while an add-on waits -/

variable (holder) in
/-- Ana's visit moves to bea. -/
theorem visit_moved (hfree : ∀ k, holder k = none) :
    ∃ holder', Alone (fun _ _ _ => True) 1 (⟨slotRows [visitAna], holder⟩, .idle) (⟨slotRows [visitBea], holder'⟩, .idle) ∧
      ∀ k, holder' k = none := by
  set s : SlotStore Nat := ⟨slotRows [visitAna], holder⟩ with hs
  set s1 := s.lock 1 (.member "ana") with hs1
  set s2 := s1.lock 1 (.member "bea") with hs2
  set s3 := s2.lock 1 (.visit "slot_1") with hs3
  set cmd : SlotCommand := .patch "slot_1" (some "bea") none none none with hcmd
  have hshows : Shows [cutItem] (overlay (slotRows [visitAna]) fun _ => none) (salonDb [visitAna]) :=
    salon_shows (by decide) rfl
  have h0 : Alone (fun _ _ _ => True) 1 (s, .idle)
      (s, ⟨fun _ => none, .locking cmd [visitAna] [.member "ana", .member "bea", .visit "slot_1"]⟩) :=
    Alone.step .refl (.start [] rfl (by simp [s, slotRows]) rfl (by decide))
  have h1 : Alone (fun _ _ _ => True) 1 (s, .idle)
      (s1, ⟨fun _ => none, .locking cmd [visitAna] [.member "bea", .visit "slot_1"]⟩) :=
    h0.step (.lock rfl (.inl (hfree _)))
  have h2 : Alone (fun _ _ _ => True) 1 (s, .idle) (s2, ⟨fun _ => none, .locking cmd [visitAna] [.visit "slot_1"]⟩) :=
    h1.step (.lock rfl (.inl (hfree _)))
  have h3 : Alone (fun _ _ _ => True) 1 (s, .idle) (s3, ⟨fun _ => none, .locking cmd [visitAna] []⟩) :=
    h2.step (.lock rfl (.inl (hfree _)))
  have h4 : Alone (fun _ _ _ => True) 1 (s, .idle) (s3, ⟨fun _ => none, .moving cmd [visitAna] [(visitAna, visitAna)]⟩) :=
    h3.step (.reread rfl rfl (by simp) (by simp [s, s1, s2, s3, slotRows, SlotStore.lock]) (by simp [hcmd, SlotCommand.unchanged]) trivial)
  have h5 : Alone (fun _ _ _ => True) 1 (s, .idle) (s3, ⟨fun _ => none, .placing cmd [visitAna] cutItem visitBea [] []⟩) :=
    h4.step (.check rfl rfl (by decide) (fun h => by cases h) (fun _ _ _ _ _ _ => by decide) (fun _ => by decide)
      (by decide) hshows (fun h => by cases h) (by decide))
  have h6 : Alone (fun _ _ _ => True) 1 (s, .idle)
      (s3, ⟨Function.update (fun _ => none) visitBea.id (some visitBea), .moving cmd [visitAna] []⟩) :=
    h5.step (.write rfl hshows (.inl ⟨rfl, rfl⟩) hshows (by decide))
  have hrows : slotRows [visitBea] = overlay (slotRows [visitAna]) (Function.update (fun _ => none) visitBea.id (some visitBea)) := by
    rw [overlay_slotRows, slotRows_shadow (show visitAna.id = visitBea.id from rfl)]
  refine ⟨(s3.unlock 1).holder, ?_, ?_⟩
  · rw [hrows]
    exact h6.step (.commit rfl)
  · intro k
    have hlocked : s3.holder k = some 1 ∨ s3.holder k = none := by
      simp only [hs3, hs2, hs1, SlotStore.lock, Function.update_apply]
      split
      · exact .inl rfl
      · split
        · exact .inl rfl
        · split
          · exact .inl rfl
          · exact .inr (hfree k)
    unfold SlotStore.unlock
    dsimp only
    rcases hlocked with h | h <;> rw [h] <;> rfl

/-- The visit as an add-on makes it. -/
def visitLong : VisitSlot := cutVisit "slot_1" "bea" 0 50

/-- The add-on locks ana, and checks the visit it finds with bea. -/
theorem visit_checked (hfree : ∀ k, holder k = none) :
    ∃ holder', Alone (fun _ _ _ => True) 0
        (⟨slotRows [visitBea], holder⟩, ⟨fun _ => none, .locking (.lengthen "slot_1" 20) [visitAna] [.member "ana", .visit "slot_1"]⟩)
        (⟨slotRows [visitBea], holder'⟩, ⟨fun _ => none, .placing (.lengthen "slot_1" 20) [visitAna] cutItem visitLong [] []⟩) ∧
      holder' (.member "bea") = none ∧ holder' (.visit "slot_2") = none := by
  set s : SlotStore Nat := ⟨slotRows [visitBea], holder⟩ with hs
  set s1 := s.lock 0 (.member "ana") with hs1
  set s2 := s1.lock 0 (.visit "slot_1") with hs2
  set cmd : SlotCommand := .lengthen "slot_1" 20 with hcmd
  have hshows : Shows [cutItem] (overlay (slotRows [visitBea]) fun _ => none) (salonDb [visitBea]) :=
    salon_shows (by decide) rfl
  have h1 : Alone (fun _ _ _ => True) 0 (s, ⟨fun _ => none, .locking cmd [visitAna] [.member "ana", .visit "slot_1"]⟩)
      (s1, ⟨fun _ => none, .locking cmd [visitAna] [.visit "slot_1"]⟩) :=
    Alone.step .refl (.lock rfl (.inl (hfree _)))
  have h2 := h1.step (.lock rfl (.inl (hfree _)))
  have h3 : Alone (fun _ _ _ => True) 0 (s, ⟨fun _ => none, .locking cmd [visitAna] [.member "ana", .visit "slot_1"]⟩)
      (s2, ⟨fun _ => none, .moving cmd [visitAna] [(visitAna, visitBea)]⟩) :=
    h2.step (.reread rfl rfl (by simp) (by simp [s, s1, slotRows, SlotStore.lock]; rfl) (by simp [hcmd, SlotCommand.unchanged]) trivial)
  have h4 : Alone (fun _ _ _ => True) 0 (s, ⟨fun _ => none, .locking cmd [visitAna] [.member "ana", .visit "slot_1"]⟩)
      (s2, ⟨fun _ => none, .placing cmd [visitAna] cutItem visitLong [] []⟩) :=
    h3.step (.check rfl rfl (by decide) (fun h => by cases h) (fun _ _ _ _ _ h => absurd h (by simp [hcmd])) (fun _ => by decide)
      (by decide) hshows (fun h => by cases h) (by decide))
  refine ⟨s2.holder, h4, ?_, ?_⟩
  · simp [hs2, hs1, SlotStore.lock, hs, hfree]
  · simp [hs2, hs1, SlotStore.lock, hs, hfree]

variable (holder) in
/-- The add-on's visit is written, too close to the cut booked since. -/
theorem visit_lengthened : Alone (fun _ _ _ => True) 0
    (⟨slotRows [cutDraft, visitBea], holder⟩, ⟨fun _ => none, .placing (.lengthen "slot_1" 20) [visitAna] cutItem visitLong [] []⟩)
    (({ rows := slotRows [visitLong, cutDraft, visitBea], holder := holder } : SlotStore Nat).unlock 0, .idle) := by
  set s : SlotStore Nat := ⟨slotRows [cutDraft, visitBea], holder⟩ with hs
  have hshows : Shows [cutItem] (overlay (slotRows [cutDraft, visitBea]) fun _ => none) (salonDb [cutDraft, visitBea]) :=
    salon_shows (by decide) rfl
  have h1 : Alone (fun _ _ _ => True) 0 (s, ⟨fun _ => none, .placing (.lengthen "slot_1" 20) [visitAna] cutItem visitLong [] []⟩)
      (s, ⟨Function.update (fun _ => none) visitLong.id (some visitLong), .moving (.lengthen "slot_1" 20) [visitAna] []⟩) :=
    Alone.step .refl (.write rfl hshows (.inl ⟨rfl, rfl⟩) hshows (by decide))
  rw [← overlay_slotRows]
  exact h1.step (.commit rfl)
end

/-- An add-on finds its visit moved to a member it did not lock, while another books her: the two end five minutes
apart less than the visit needs. -/
theorem lengthen_strays : ∃ (w w' : World Nat (SlotStore Nat) SlotWriter) (ps : List Nat), (∀ p, w.place p = .idle) ∧
    (∀ i a, w.store.rows i = some a → a.id = i ∧ a.startsAt < a.endsAt) ∧ NoDoubleBooking [cutItem] w.store.rows ∧
    Run (Interleaved (SlotStep [cutItem] utc fun _ _ _ => True)) w ps w' ∧ ¬NoDoubleBooking [cutItem] w'.store.rows := by
  set w : World Nat (SlotStore Nat) SlotWriter := ⟨⟨slotRows [visitAna], fun _ => none⟩, fun _ => .idle⟩ with hw
  set adding : SlotWriter := ⟨fun _ => none, .locking (.lengthen "slot_1" 20) [visitAna] [.member "ana", .visit "slot_1"]⟩
    with hadding
  -- the add-on reads its visit, which moves before it locks anything
  have hstart : SlotStep [cutItem] utc (fun _ _ _ => True) 0 w.store .idle w.store adding :=
    .start [] rfl (by simp [hw, slotRows]) rfl (by decide)
  obtain ⟨ps0, hrun0⟩ := Interleaved.block (w := w) (p := 0) rfl (.single (b := (w.store, adding)) hstart)
  obtain ⟨holder1, hmoved, hfree1⟩ := visit_moved (fun _ => none) fun _ => rfl
  obtain ⟨ps1, hrun1⟩ := Interleaved.block (w := ⟨w.store, Function.update w.place 0 adding⟩) (p := 1) rfl hmoved
  -- it checks the moved visit, and another books the same member
  obtain ⟨holder2, hchecked, hbea, hid⟩ := visit_checked hfree1
  obtain ⟨ps2, hrun2⟩ := Interleaved.block
    (w := ⟨_, Function.update (Function.update w.place 0 adding) 1 .idle⟩) (p := 0) rfl hchecked
  obtain ⟨holder3, hbooked⟩ := draft_booked _ _ hbea hid
  obtain ⟨ps3, hrun3⟩ := Interleaved.block
    (w := ⟨_, Function.update (Function.update (Function.update w.place 0 adding) 1 .idle) 0 _⟩) (p := 2) rfl hbooked
  obtain ⟨ps4, hrun4⟩ := Interleaved.block
    (w := ⟨_, Function.update (Function.update (Function.update (Function.update w.place 0 adding) 1 .idle) 0 _) 2 .idle⟩)
    (p := 0) rfl (visit_lengthened holder3)
  refine ⟨w, _, _, fun _ => rfl, fun i a ha => ?_, fun i j a b hij ha hb => ?_,
    (((hrun0.append hrun1).append hrun2).append hrun3).append hrun4, fun hno => ?_⟩
  · obtain ⟨hmem, hid⟩ := slotRows_some ha
    obtain rfl := List.mem_singleton.1 hmem
    exact ⟨hid, by decide⟩
  · have ha' := slotRows_some ha
    have hb' := slotRows_some hb
    obtain rfl := List.mem_singleton.1 ha'.1
    obtain rfl := List.mem_singleton.1 hb'.1
    exact absurd (ha'.2.symm.trans hb'.2) hij
  · have hapart := hno "slot_1" "slot_2" visitLong cutDraft (by decide) rfl rfl rfl rfl (.inl rfl) cutItem cutItem rfl rfl
    revert hapart
    decide
end ClientBridge
