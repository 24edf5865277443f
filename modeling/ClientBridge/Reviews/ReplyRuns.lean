import ClientBridge.Reviews.Replies

/-!
# What an execution sends

Only the execution that marked the operation running may write, and it writes only under the lock
while every earlier write was turned away for its rate.  That holds in every run.  That nothing is
written after a cancel holds while no sweep cancels an operation under an execution that is about
to write: the sweeps take no lock.
-/

namespace ClientBridge

open Runs

variable {π : Type} {p q : π} {s s' : ReplyStore π}

/-- Every write so far was turned away for its rate. -/
def AllLimited (s : ReplyStore π) : Prop := ∀ e ∈ s.sends, e.answer = some (.error .rateLimited)

/-- The wanted reply was read back, or a write succeeded. -/
def ReplySeen (s : ReplyStore π) : Prop := s.goal ∈ s.reads ∨ ∃ e ∈ s.sends, e.answer = some .ok

/-- What holds between any two steps. -/
structure ReplyKept (s : ReplyStore π) : Prop extends RepliesSound s where
  goal : ∀ d, s.operation.desired = some d → d = s.goal
  queued : s.operation.state = .queued → s.writer = none ∧ AllLimited s

/-- The operation as an execution under the lock read it. -/
structure FoundReply (s : ReplyStore π) (seen : ReplyOperation) : Prop where
  pending : seen.state.pending = true
  goal : ∀ d, seen.desired = some d → d = s.goal
  queued : seen.state.reconciling = false → s.writer = none ∧ AllLimited s

/-- The newest write, with its answer so far; those before it were turned away for their rate. -/
def NewestSend (s : ReplyStore π) (a : Option SendAnswer) : Prop :=
  ∃ e earlier, s.sends = e :: earlier ∧ e.answer = a ∧ ∀ e' ∈ earlier, e'.answer = some (.error .rateLimited)

/-- What an execution knows, by where it is. -/
def ReplyKnows (p : π) (s : ReplyStore π) : ReplyPlace → Prop
  | .idle | .due _ | .refused _ => True
  | .locked => s.lock = some p
  | .fetching seen | .deciding seen _ => s.lock = some p ∧ FoundReply s seen
  | .marked => s.writer = some p ∧ (s.operation.state = .running → AllLimited s)
  | .writing =>
    s.lock = some p ∧ s.writer = some p ∧ AllLimited s ∧
      ∀ c, s.connection = some c → c.generation = s.operation.generation
  | .awaiting => s.lock = some p ∧ s.writer = some p ∧ NewestSend s none
  | .answered a => s.lock = some p ∧ s.writer = some p ∧ NewestSend s (some a)

/-! ## States -/

theorem ReplyState.queued_of_pending {t : ReplyState} (h : t.pending = true) (hr : t.reconciling = false) : t = .queued := by
  cases t with
  | queued => rfl
  | running => cases hr
  | unknown => cases hr
  | confirmed => cases h
  | failed => cases h
  | canceled => cases h

theorem ReplyState.afterError_cases (b : Bool) (t : ReplyState) (code : GoogleError) :
    t.afterError b code = .unknown ∨ t.afterError b code = .failed ∨ (t.afterError b code = .queued ∧ b = false) := by
  unfold ReplyState.afterError
  cases b with
  | true => exact .inl rfl
  | false =>
    split
    · next h => cases h
    · split
      · exact .inr (.inl rfl)
      · split
        · exact .inr (.inr ⟨rfl, rfl⟩)
        · split
          · exact .inl rfl
          · exact .inr (.inr ⟨rfl, rfl⟩)

theorem SendAnswer.state_ne_running (a : SendAnswer) : a.state ≠ .running := by
  cases a with
  | ok => decide
  | error code => cases code <;> decide

theorem SendAnswer.of_confirmed {a : SendAnswer} (h : a.state = .confirmed) : a = .ok := by
  cases a with
  | ok => rfl
  | error code => cases code <;> cases h

theorem SendAnswer.of_queued {a : SendAnswer} (h : a.state = .queued) : a = .error .rateLimited := by
  cases a with
  | ok => cases h
  | error code => cases code <;> first | rfl | cases h

theorem ReplyOperation.write_state (o : ReplyOperation) (seen new : ReplyState) :
    (o.write seen new).state = if new = seen then o.state else new := rfl

theorem ReplyOperation.write_desired {o : ReplyOperation} {seen new : ReplyState} {d : Option String}
    (h : (o.write seen new).desired = some d) : o.desired = some d := by
  obtain ⟨_, _, kind, request, _, _, _⟩ := o
  cases kind with
  | delete => exact h
  | put =>
    have h' : (if new.pending then request else none).map some = some d := h
    split at h'
    · exact h'
    · cases h'

theorem ReplyOperation.cancel_desired {o : ReplyOperation} {d : Option String} (h : o.cancel.desired = some d) :
    o.desired = some d := by
  obtain ⟨_, _, kind, _, _, _, _⟩ := o
  cases kind with
  | delete => exact h
  | put => cases h

/-! ## The steps -/

/-- A step that sends nothing and writes neither queued nor, unseen, confirmed. -/
theorem ReplyKept.of_write (h : ReplyKept s) (hs : s'.sends = s.sends) (hg : s'.goal = s.goal)
    (hread : ∀ d ∈ s.reads, d ∈ s'.reads) (hgen : s'.operation.generation = s.operation.generation)
    (hd : ∀ d, s'.operation.desired = some d → s.operation.desired = some d)
    (hq : s'.operation.state = .queued → s.operation.state = .queued ∧ (s.writer = none → s'.writer = none))
    (hc : s'.operation.state = .confirmed → s.operation.state = .confirmed ∨ ReplySeen s') : ReplyKept s' where
  limited := by rw [hs]; exact h.limited
  generation := by rw [hs, hgen]; exact h.generation
  confirmed hst := by
    obtain hst' | hseen := hc hst
    · obtain hr | ⟨e, he, ha⟩ := h.confirmed hst'
      · exact .inl (hg ▸ hread _ hr)
      · exact .inr ⟨e, hs ▸ he, ha⟩
    · exact hseen
  goal d hd' := by rw [hg]; exact h.goal d (hd d hd')
  queued hst := by
    obtain ⟨hst', hw⟩ := hq hst
    obtain ⟨hnone, hall⟩ := h.queued hst'
    exact ⟨hw hnone, fun e he => hall e (hs ▸ he)⟩

/-- The operation stays as it is. -/
theorem ReplyKept.of_same (h : ReplyKept s) (ho : s'.operation = s.operation) (hs : s'.sends = s.sends)
    (hr : s'.reads = s.reads) (hg : s'.goal = s.goal) (hw : s.writer = none → s'.writer = none) : ReplyKept s' :=
  h.of_write hs hg (fun d hd => hr ▸ hd) (by rw [ho]) (fun d hd => ho ▸ hd) (fun hq => ⟨ho ▸ hq, hw⟩)
    fun hc => .inl (ho ▸ hc)

theorem ReplyKept.cancel (h : ReplyKept s) : ReplyKept s.cancel :=
  h.of_write rfl rfl (fun _ hd => hd) rfl (fun _ hd => ReplyOperation.cancel_desired hd) (fun hq => nomatch hq)
    fun hc => nomatch hc

theorem ReplyKept.cancelOperations (h : ReplyKept s) : ReplyKept s.cancelOperations := by
  unfold ReplyStore.cancelOperations
  split
  · exact h.cancel
  · exact h

/-- A write under the lock, while every earlier one was turned away. -/
theorem ReplyKept.addSend (h : ReplyKept s) (hx : ReplyKnows p s .writing) {c : GoogleConnection}
    (hc : s.connection = some c) : ReplyKept (s.addSend c) where
  limited := List.pairwise_cons.2 ⟨hx.2.2.1, h.limited⟩
  generation e he := by
    obtain rfl | he := List.mem_cons.1 he
    · exact hx.2.2.2 c hc
    · exact h.generation e he
  confirmed hst := by
    obtain hr | ⟨e, he, ha⟩ := h.confirmed hst
    · exact .inl hr
    · exact .inr ⟨e, List.mem_cons_of_mem _ he, ha⟩
  goal := h.goal
  queued hst := by
    have hnone : s.writer = none := (h.queued hst).1
    rw [hx.2.1] at hnone
    cases hnone

theorem ReplyStore.answer_eq {e : ReplySend} {earlier : List ReplySend} (he : s.sends = e :: earlier) (a : SendAnswer) :
    s.answer a = { s with sends := { e with answer := some a } :: earlier } := by
  unfold ReplyStore.answer
  rw [he]

theorem ReplyKept.answer (h : ReplyKept s) (hx : ReplyKnows p s .awaiting) (a : SendAnswer) : ReplyKept (s.answer a) := by
  obtain ⟨-, hw, e, earlier, he, hea, hall⟩ := hx
  rw [ReplyStore.answer_eq he]
  have hgen := h.generation
  have hlim := h.limited
  rw [he] at hgen hlim
  refine { limited := ?_, generation := ?_, confirmed := fun hst => ?_, goal := h.goal, queued := fun hst => ?_ }
  · exact List.pairwise_cons.2 ⟨hall, (List.pairwise_cons.1 hlim).2⟩
  · intro e' he'
    obtain rfl | he' := List.mem_cons.1 he'
    · exact hgen e List.mem_cons_self
    · exact hgen e' (List.mem_cons_of_mem _ he')
  · obtain hr | ⟨e', he', ha⟩ := h.confirmed hst
    · exact .inl hr
    · rw [he] at he'
      obtain rfl | he' := List.mem_cons.1 he'
      · rw [hea] at ha
        cases ha
      · exact .inr ⟨e', List.mem_cons_of_mem _ he', ha⟩
  · have hnone : s.writer = none := (h.queued hst).1
    rw [hw] at hnone
    cases hnone

/-- A command that changes the connection. -/
theorem ReplyKept.changeConnection (h : ReplyKept s) (c : GoogleConnection) (state : ConnectionState) :
    ReplyKept (s.changeConnection c state) := by
  have hsame : ReplyKept { s with connection := some { c with state := state, generation := c.generation + 1 } } :=
    h.of_same rfl rfl rfl rfl id
  exact hsame.cancelOperations

theorem FoundReply.of_read (h : ReplyKept s) (hp : s.operation.state.pending = true) : FoundReply s s.operation where
  pending := hp
  goal := h.goal
  queued hr := h.queued (ReplyState.queued_of_pending hp hr)

theorem ReplyStore.mayWrite_ok (h : s.mayWrite = true) :
    s.operation.state = .running ∧ ∀ c, s.connection = some c → c.generation = s.operation.generation := by
  unfold ReplyStore.mayWrite at h
  obtain ⟨hc, hr⟩ := Bool.and_eq_true_iff.1 h
  refine ⟨of_decide_eq_true hr, fun c hc' => ?_⟩
  rw [hc'] at hc
  exact of_decide_eq_true hc

variable [DecidableEq π]

/-- An execution that does not write its own answer ends. -/
theorem ReplyKept.finish (h : ReplyKept s) {seen new : ReplyState} (hq : new = .queued → seen = .queued)
    (hc : new = .confirmed → ReplySeen s) : ReplyKept (s.finish p seen new) := by
  refine h.of_write rfl rfl (fun _ hd => hd) rfl (fun _ hd => ReplyOperation.write_desired hd) (fun hst => ?_) fun hst => ?_
  · have hst' : (if new = seen then s.operation.state else new) = .queued := hst
    split at hst'
    · exact ⟨hst', id⟩
    · next hne => exact absurd (hst'.trans (hq hst').symm) hne
  · have hst' : (if new = seen then s.operation.state else new) = .confirmed := hst
    split at hst'
    · exact .inl hst'
    · exact .inr (hc hst')

theorem ReplyKept.mark (h : ReplyKept s) {seen : ReplyState} (hq : seen = .queued) : ReplyKept (s.mark p seen) := by
  subst hq
  exact h.of_write rfl rfl (fun _ hd => hd) rfl (fun _ hd => ReplyOperation.write_desired hd) (fun hst => nomatch hst)
    fun hst => nomatch hst

theorem ReplyKept.leave (h : ReplyKept s) : ReplyKept (s.leave p) := by
  refine h.of_same rfl rfl rfl rfl fun hn => ?_
  show (if s.writer = some p then none else s.writer) = none
  split
  · rfl
  · exact hn

/-- An execution writes what it was answered. -/
theorem ReplyKept.commit (h : ReplyKept s) {a : SendAnswer} (hx : ReplyKnows p s (.answered a)) :
    ReplyKept ((s.finish p .running a.state).leave p) := by
  obtain ⟨-, hw, e, earlier, he, hea, hall⟩ := hx
  have hstate : ((s.finish p .running a.state).leave p).operation.state = a.state := if_neg a.state_ne_running
  refine
    { limited := h.limited
      generation := h.generation
      confirmed := fun hst => ?_
      goal := fun d hd => h.goal d (ReplyOperation.write_desired hd)
      queued := fun hst => ⟨if_pos hw, fun e' he' => ?_⟩ }
  · obtain rfl := SendAnswer.of_confirmed (hstate.symm.trans hst)
    exact .inr ⟨e, by show e ∈ s.sends; rw [he]; exact List.mem_cons_self, hea⟩
  · obtain rfl := SendAnswer.of_queued (hstate.symm.trans hst)
    have he'' : e' ∈ s.sends := he'
    rw [he] at he''
    obtain rfl | he'' := List.mem_cons.1 he''
    · exact hea
    · exact hall e' he''

variable {x x' : ReplyPlace}

theorem ReplyStep.kept (hs : ReplyStep p s x s' x') (h : ReplyKept s) (hx : ReplyKnows p s x) : ReplyKept s' := by
  cases hs with
  | tick hn => exact h.of_same rfl rfl rfl rfl id
  | replied => exact h.of_same rfl rfl rfl rfl id
  | complete hl hc => exact h.changeConnection _ _
  | select hl hc => exact h.changeConnection _ _
  | disconnect hl hc hd => exact h.changeConnection _ _
  | lost hl hc => exact h.of_same rfl rfl rfl rfl id
  | sweep =>
    unfold ReplyStore.sweep
    split
    · exact h.cancel
    · exact h
  | scan hp => exact h
  | dismiss => exact h.cancel
  | keep => exact h
  | lock hl => exact h.of_same rfl rfl rfl rfl id
  | ended hp => exact h.of_same rfl rfl rfl rfl id
  | expire hp he => exact h.cancel.of_same rfl rfl rfl rfl id
  | read hp he => exact h
  | refuse hc => exact h.of_same rfl rfl rfl rfl id
  | @refused seen =>
    refine h.finish (fun hq => ?_) fun hc => ?_
    · unfold ReplyState.afterError at hq
      split at hq <;> cases hq
    · unfold ReplyState.afterError at hc
      split at hc <;> cases hc
  | @unread seen code =>
    refine h.finish (fun hq => ?_) fun hc => ?_
    · obtain hu | hu | ⟨-, hr⟩ := seen.state.afterError_cases seen.state.reconciling code
      · exact absurd (hu.symm.trans hq) (by decide)
      · exact absurd (hu.symm.trans hq) (by decide)
      · exact ReplyState.queued_of_pending hx.2.pending hr
    · obtain hu | hu | ⟨hu, -⟩ := seen.state.afterError_cases seen.state.reconciling code <;>
        exact absurd (hu.symm.trans hc) (by decide)
  | fetch => exact h
  | @confirm seen reply hd =>
    have hread : ReplyKept { s with reads := ReplyStore.comment reply :: s.reads } :=
      h.of_write rfl rfl (fun d hd => List.mem_cons_of_mem _ hd) rfl (fun _ hd => hd) (fun hq => ⟨hq, id⟩) .inl
    refine hread.finish (fun hq => nomatch hq) fun _ => .inl ?_
    show s.goal ∈ ReplyStore.comment reply :: s.reads
    rw [hx.2.goal _ hd]
    exact List.mem_cons_self
  | uncertain hd hm hr => exact h.finish (fun hq => nomatch hq) fun hc => nomatch hc
  | stale hd hm hr he => exact h.finish (fun hq => nomatch hq) fun hc => nomatch hc
  | mark hd hm hr he => exact h.mark (ReplyState.queued_of_pending hx.2.pending hr)
  | relock hl hm => exact h.of_same rfl rfl rfl rfl id
  | giveUp hl hm => exact h.leave
  | send hc => exact h.addSend hx hc
  | answer => exact h.answer hx _
  | commit => exact h.commit hx
  | crash => exact h.leave

section
variable {π : Type} {p q : π} {s s' : ReplyStore π}

/-- A step of `p` leaves alone what the other executions rely on. -/
structure LeavesReply (p : π) (s s' : ReplyStore π) : Prop where
  lock : ∀ q, q ≠ p → s.lock = some q → s'.lock = some q
  goal : s'.goal = s.goal
  generation : s'.operation.generation = s.operation.generation
  connection : ∀ q, q ≠ p → s.lock = some q → ∀ c, s'.connection = some c →
    ∃ d, s.connection = some d ∧ d.generation = c.generation
  sends : s'.sends = s.sends ∨ s.writer = some p
  writer : s'.writer = s.writer ∨ (s.writer = none ∧ s.lock = some p) ∨ s.writer = some p
  running : s'.operation.state = .running → s.operation.state = .running ∨ s.writer = none

/-- A step that changes neither the connection, nor what was sent, nor who writes. -/
theorem LeavesReply.of_same (hl : ∀ q, q ≠ p → s.lock = some q → s'.lock = some q) (hg : s'.goal = s.goal)
    (hgen : s'.operation.generation = s.operation.generation) (hc : s'.connection = s.connection)
    (hs : s'.sends = s.sends) (hw : s'.writer = s.writer)
    (hr : s'.operation.state = .running → s.operation.state = .running) : LeavesReply p s s' where
  lock := hl
  goal := hg
  generation := hgen
  connection _ _ _ c hc' := ⟨c, hc ▸ hc', rfl⟩
  sends := .inl hs
  writer := .inl hw
  running h := .inl (hr h)

theorem LeavesReply.cancel (s : ReplyStore π) : LeavesReply p s s.cancel :=
  .of_same (fun _ _ h => h) rfl rfl rfl rfl rfl fun h => nomatch h

theorem LeavesReply.refl (s : ReplyStore π) : LeavesReply p s s := .of_same (fun _ _ h => h) rfl rfl rfl rfl rfl id

/-- While nobody holds the lock, the connection may change. -/
theorem LeavesReply.changeConnection (hl : s.lock = none) (c : GoogleConnection) (state : ConnectionState) :
    LeavesReply p s (s.changeConnection c state) := by
  have hno : ∀ q : π, s.lock ≠ some q := fun q h => by
    rw [hl] at h
    cases h
  unfold ReplyStore.changeConnection ReplyStore.cancelOperations
  split
  · exact { lock := fun q _ h => h, goal := rfl, generation := rfl, connection := fun q _ h => absurd h (hno q),
            sends := .inl rfl, writer := .inl rfl, running := fun h => nomatch h }
  · exact { lock := fun q _ h => h, goal := rfl, generation := rfl, connection := fun q _ h => absurd h (hno q),
            sends := .inl rfl, writer := .inl rfl, running := fun h => .inl h }

theorem LeavesReply.refuseToken {c : GoogleConnection} (hc : s.connection = some c) : LeavesReply p s (s.refuseToken c) where
  lock _ _ h := h
  goal := rfl
  generation := rfl
  connection _ _ _ d hd := ⟨c, hc, by obtain rfl := Option.some.inj hd; rfl⟩
  sends := .inl rfl
  writer := .inl rfl
  running h := .inl h

/-- The execution that writes changes what was sent. -/
theorem LeavesReply.of_writer (hw : s.writer = some p) (hl : ∀ q, q ≠ p → s.lock = some q → s'.lock = some q)
    (hg : s'.goal = s.goal) (hgen : s'.operation.generation = s.operation.generation) (hc : s'.connection = s.connection)
    (hr : s'.operation.state = .running → s.operation.state = .running) : LeavesReply p s s' where
  lock := hl
  goal := hg
  generation := hgen
  connection _ _ _ c hc' := ⟨c, hc ▸ hc', rfl⟩
  sends := .inr hw
  writer := .inr (.inr hw)
  running h := .inl (hr h)

/-- What was sent stays while another execution is the one that may write. -/
theorem LeavesReply.sends_eq (h : LeavesReply p s s') (hq : q ≠ p) (hw : s.writer = some q) :
    s'.sends = s.sends ∧ s'.writer = some q := by
  have hne : s.writer ≠ some p := fun he => hq (Option.some.inj (hw.symm.trans he))
  have hsome : s.writer ≠ none := fun he => by
    rw [hw] at he
    cases he
  constructor
  · obtain hs | hp := h.sends
    · exact hs
    · exact absurd hp hne
  · obtain hs | ⟨hn, -⟩ | hp := h.writer
    · exact hs.trans hw
    · exact absurd hn hsome
    · exact absurd hp hne

/-- Nobody starts to write while another execution holds the lock. -/
theorem LeavesReply.unmarked (h : LeavesReply p s s') (hq : q ≠ p) (hl : s.lock = some q) (hw : s.writer = none) :
    s'.writer = none ∧ s'.sends = s.sends := by
  have hne : s.writer ≠ some p := fun he => by
    rw [hw] at he
    cases he
  constructor
  · obtain hs | ⟨-, hp⟩ | hp := h.writer
    · exact hs.trans hw
    · exact absurd (Option.some.inj (hl.symm.trans hp)) hq
    · exact absurd hp hne
  · obtain hs | hp := h.sends
    · exact hs
    · exact absurd hp hne

theorem FoundReply.leaves (h : LeavesReply p s s') (hq : q ≠ p) (hl : s.lock = some q) {seen : ReplyOperation}
    (hf : FoundReply s seen) : FoundReply s' seen where
  pending := hf.pending
  goal d hd := by rw [h.goal]; exact hf.goal d hd
  queued hr := by
    obtain ⟨hw, hall⟩ := hf.queued hr
    obtain ⟨hw', hs⟩ := h.unmarked hq hl hw
    exact ⟨hw', fun e he => hall e (hs ▸ he)⟩

theorem LeavesReply.knows {y : ReplyPlace} (h : LeavesReply p s s') (hq : q ≠ p) (hy : ReplyKnows q s y) : ReplyKnows q s' y := by
  cases y with
  | idle => trivial
  | due seen => trivial
  | refused seen => trivial
  | locked => exact h.lock q hq hy
  | fetching seen => exact ⟨h.lock q hq hy.1, hy.2.leaves h hq hy.1⟩
  | deciding seen reply => exact ⟨h.lock q hq hy.1, hy.2.leaves h hq hy.1⟩
  | marked =>
    obtain ⟨hw, hall⟩ := hy
    obtain ⟨hs, hw'⟩ := h.sends_eq hq hw
    refine ⟨hw', fun hr e he => ?_⟩
    obtain hr' | hn := h.running hr
    · exact hall hr' e (hs ▸ he)
    · rw [hw] at hn
      cases hn
  | writing =>
    obtain ⟨hl, hw, hall, hgen⟩ := hy
    obtain ⟨hs, hw'⟩ := h.sends_eq hq hw
    refine ⟨h.lock q hq hl, hw', fun e he => hall e (hs ▸ he), fun c hc => ?_⟩
    obtain ⟨d, hd, hdc⟩ := h.connection q hq hl c hc
    rw [h.generation, ← hdc]
    exact hgen d hd
  | awaiting =>
    obtain ⟨hl, hw, e, earlier, he, hnewest⟩ := hy
    obtain ⟨hs, hw'⟩ := h.sends_eq hq hw
    exact ⟨h.lock q hq hl, hw', e, earlier, hs.trans he, hnewest⟩
  | answered a =>
    obtain ⟨hl, hw, e, earlier, he, hnewest⟩ := hy
    obtain ⟨hs, hw'⟩ := h.sends_eq hq hw
    exact ⟨h.lock q hq hl, hw', e, earlier, hs.trans he, hnewest⟩

theorem ReplyQueued.knows {w : World π (ReplyStore π) ReplyPlace} (h : ReplyQueued w) : Knows ReplyKept ReplyKnows w := by
  refine ⟨{ limited := ?_, generation := ?_, confirmed := ?_, goal := ?_, queued := ?_ }, fun p => ?_⟩
  · rw [h.unsent]
    exact .nil
  · rw [h.unsent]
    exact fun e he => nomatch he
  · rw [h.queued]
    exact fun hc => nomatch hc
  · intro d hd
    exact Option.some.inj (hd.symm.trans h.goal)
  · refine fun _ => ⟨h.unmarked, fun e he => ?_⟩
    rw [h.unsent] at he
    cases he
  · rw [h.idle p]
    trivial

theorem ReplyStore.cancel_stopped (s : ReplyStore π) :
    s.cancel.operation.state ≠ .queued ∧ s.cancel.operation.state ≠ .running := by
  constructor
  · exact fun h => nomatch h
  · exact fun h => nomatch h

variable [DecidableEq π]

theorem ReplyStore.release_other (hq : q ≠ p) (hl : s.lock = some q) : (s.release p).lock = some q := by
  show (if s.lock = some p then none else s.lock) = some q
  rw [if_neg fun he => hq (Option.some.inj (hl.symm.trans he))]
  exact hl

theorem LeavesReply.release (h : LeavesReply p s s') : LeavesReply p s (s'.release p) where
  lock q hq hl := ReplyStore.release_other hq (h.lock q hq hl)
  goal := h.goal
  generation := h.generation
  connection := h.connection
  sends := h.sends
  writer := h.writer
  running := h.running

theorem LeavesReply.finish {seen new : ReplyState} (hn : new ≠ .running) : LeavesReply p s (s.finish p seen new) := by
  refine .of_same (fun _ hq hl => ReplyStore.release_other hq hl) rfl rfl rfl rfl rfl fun hr => ?_
  have hr' : (if new = seen then s.operation.state else new) = .running := hr
  split at hr'
  · exact hr'
  · exact absurd hr' hn

theorem LeavesReply.leave (h : LeavesReply p s s') (hw : s'.writer = s.writer ∨ s.writer = some p) :
    LeavesReply p s (s'.leave p) where
  lock q hq hl := ReplyStore.release_other hq (h.lock q hq hl)
  goal := h.goal
  generation := h.generation
  connection := h.connection
  sends := h.sends
  writer := by
    show (if s'.writer = some p then none else s'.writer) = s.writer ∨ _
    obtain hw | hw := hw
    · rw [hw]
      split
      · next he => exact .inr (.inr he)
      · exact .inl rfl
    · exact .inr (.inr hw)
  running := h.running

theorem LeavesReply.mark (hl : s.lock = some p) (hw : s.writer = none) (seen : ReplyState) :
    LeavesReply p s (s.mark p seen) where
  lock _ hq hl := ReplyStore.release_other hq hl
  goal := rfl
  generation := rfl
  connection _ _ _ c hc := ⟨c, hc, rfl⟩
  sends := .inl rfl
  writer := .inr (.inl ⟨hw, hl⟩)
  running _ := .inr hw

end

theorem ReplyStep.leaves (hs : ReplyStep p s x s' x') (hx : ReplyKnows p s x) : LeavesReply p s s' := by
  have htaken : s.lock = none → ∀ q, q ≠ p → s.lock = some q → some p = some q := fun hl q _ h => by
    rw [hl] at h
    cases h
  cases hs with
  | tick hn => exact .of_same (fun _ _ h => h) rfl rfl rfl rfl rfl id
  | replied => exact .of_same (fun _ _ h => h) rfl rfl rfl rfl rfl id
  | complete hl hc => exact .changeConnection hl _ _
  | select hl hc => exact .changeConnection hl _ _
  | disconnect hl hc hd => exact .changeConnection hl _ _
  | lost hl hc => exact .refuseToken hc
  | sweep =>
    unfold ReplyStore.sweep
    split
    · exact .cancel s
    · exact .refl s
  | scan hp => exact .refl s
  | dismiss => exact .cancel s
  | keep => exact .refl s
  | lock hl => exact .of_same (htaken hl) rfl rfl rfl rfl rfl id
  | ended hp => exact LeavesReply.release (.refl s)
  | expire hp he => exact LeavesReply.release (.cancel s)
  | read hp he => exact .refl s
  | refuse hc => exact LeavesReply.release (.refuseToken hc)
  | @refused seen =>
    refine .finish fun hr => ?_
    unfold ReplyState.afterError at hr
    split at hr <;> cases hr
  | @unread seen code =>
    refine .finish fun hr => ?_
    obtain hu | hu | ⟨hu, -⟩ := seen.state.afterError_cases seen.state.reconciling code <;>
      exact absurd (hu.symm.trans hr) (by decide)
  | fetch => exact .refl s
  | confirm hd =>
    refine .of_same (fun _ hq hl => ReplyStore.release_other hq hl) rfl rfl rfl rfl rfl fun hr => ?_
    have hr' : (if ReplyState.confirmed = _ then s.operation.state else ReplyState.confirmed) = .running := hr
    split at hr'
    · exact hr'
    · cases hr'
  | uncertain hd hm hr => exact .finish (by decide)
  | stale hd hm hr he => exact .finish (by decide)
  | mark hd hm hr he => exact .mark hx.1 (hx.2.queued hr).1 _
  | relock hl hm => exact .of_same (htaken hl) rfl rfl rfl rfl rfl id
  | giveUp hl hm => exact LeavesReply.leave (.refl s) (.inl rfl)
  | send hc => exact .of_writer hx.2.1 (fun _ _ h => h) rfl rfl rfl id
  | answer =>
    obtain ⟨-, hw, e, earlier, he, -, -⟩ := hx
    rw [ReplyStore.answer_eq he]
    exact .of_writer hw (fun _ _ h => h) rfl rfl rfl id
  | @commit a => exact LeavesReply.leave (.finish a.state_ne_running) (.inr hx.2.1)
  | crash => exact LeavesReply.leave (.refl s) (.inl rfl)

theorem ReplyStep.knows_own (hs : ReplyStep p s x s' x') (h : ReplyKept s) (hx : ReplyKnows p s x) :
    ReplyKnows p s' x' := by
  cases hs with
  | lock hl => exact rfl
  | read hp he => exact ⟨hx, .of_read h hp⟩
  | fetch => exact hx
  | mark hd hm hr he => exact ⟨rfl, fun _ => (hx.2.queued hr).2⟩
  | relock hl hm =>
    obtain ⟨hrun, hgen⟩ := ReplyStore.mayWrite_ok hm
    exact ⟨rfl, hx.1, hx.2 hrun, hgen⟩
  | send hc => exact ⟨hx.1, hx.2.1, _, _, rfl, rfl, hx.2.2.1⟩
  | answer =>
    obtain ⟨hl, hw, e, earlier, he, -, hall⟩ := hx
    rw [ReplyStore.answer_eq he]
    exact ⟨hl, hw, _, _, rfl, rfl, hall⟩
  | _ => trivial

theorem replies_kept : Kept (ReplyStep (π := π)) ReplyKept ReplyKnows where
  store hs h hx := hs.kept h hx
  own hs h hx := hs.knows_own h hx
  others hs hq _ hx hy := (hs.leaves hx).knows hq hy

/-! ## Cancels -/

/-- After a cancel the operation neither waits nor runs, nothing was sent, and nobody is to write it. -/
structure CancelsKept (w : World π (ReplyStore π) ReplyPlace) : Prop where
  stopped : w.store.canceled = true → w.store.operation.state ≠ .queued ∧ w.store.operation.state ≠ .running
  sends : ∀ e ∈ w.store.sends, e.canceled = false
  places : ∀ p, (w.place p).holdsWrite = true → w.store.canceled = false

/-- What a step does to a canceled operation: it cancels it, or brings it back only from a place to write. -/
theorem ReplyStep.stopped (hs : ReplyStep p s x s' x') (hx : ReplyKnows p s x)
    (hc : s.canceled = true → s.operation.state ≠ .queued ∧ s.operation.state ≠ .running)
    (hp : x.holdsWrite = true → s.canceled = false) :
    s'.canceled = true → s'.operation.state ≠ .queued ∧ s'.operation.state ≠ .running := by
  have hchange : ∀ t : ReplyStore π, t.operation = s.operation → t.canceled = s.canceled →
      t.cancelOperations.canceled = true →
        t.cancelOperations.operation.state ≠ .queued ∧ t.cancelOperations.operation.state ≠ .running := by
    intro t ho hcan
    unfold ReplyStore.cancelOperations
    split
    · exact fun _ => t.cancel_stopped
    · rw [ho, hcan]
      exact hc
  have hwrite : ∀ {seen new : ReplyState}, new ≠ .queued → new ≠ .running → s.canceled = true →
      (s.operation.write seen new).state ≠ .queued ∧ (s.operation.write seen new).state ≠ .running := by
    intro seen new hq hr hcan
    rw [ReplyOperation.write_state]
    split
    · exact hc hcan
    · exact ⟨hq, hr⟩
  have hheld : x.holdsWrite = true → ∀ {b : Prop}, s.canceled = true → b := fun h b hcan => by
    rw [hp h] at hcan
    cases hcan
  cases hs with
  | complete hl hc' => exact hchange _ rfl rfl
  | select hl hc' => exact hchange _ rfl rfl
  | disconnect hl hc' hd => exact hchange _ rfl rfl
  | sweep =>
    unfold ReplyStore.sweep
    split
    · exact fun _ => s.cancel_stopped
    · exact hc
  | dismiss => exact fun _ => s.cancel_stopped
  | expire h he => exact fun _ => s.cancel_stopped
  | @refused seen =>
    refine hwrite ?_ ?_ <;>
      · unfold ReplyState.afterError
        split <;> exact fun h => nomatch h
  | @unread seen code =>
    obtain hu | hu | ⟨-, hr⟩ := seen.state.afterError_cases seen.state.reconciling code
    · exact hwrite (by rw [hu]; decide) (by rw [hu]; decide)
    · exact hwrite (by rw [hu]; decide) (by rw [hu]; decide)
    · exact hheld (by show (!seen.state.reconciling) = true; rw [hr]; rfl)
  | confirm hd => exact hwrite (by decide) (by decide)
  | uncertain hd hm hr => exact hwrite (by decide) (by decide)
  | stale hd hm hr he => exact hwrite (by decide) (by decide)
  | @mark seen reply desired hd hm hr he => exact hheld (by show (!seen.state.reconciling) = true; rw [hr]; rfl)
  | answer =>
    obtain ⟨-, -, e, earlier, he, -, -⟩ := hx
    rw [ReplyStore.answer_eq he]
    exact hc
  | commit => exact hheld rfl
  | _ => exact hc

/-- An execution comes to a place to write only where the operation was not canceled. -/
theorem ReplyStep.holds (hs : ReplyStep p s x s' x') (hx : ReplyKnows p s x)
    (hc : s.canceled = true → s.operation.state ≠ .queued ∧ s.operation.state ≠ .running)
    (hp : x.holdsWrite = true → s.canceled = false) : x'.holdsWrite = true → s'.canceled = false := by
  have hnot : (s.operation.state = .queued ∨ s.operation.state = .running) → s.canceled = false := fun h => by
    by_contra hcan
    obtain ⟨hq, hr⟩ := hc (Bool.eq_true_of_not_eq_false hcan)
    exact h.elim hq hr
  cases hs with
  | read h he =>
    intro hh
    have hr : s.operation.state.reconciling = false := by simpa [ReplyPlace.holdsWrite] using hh
    exact hnot (.inl (ReplyState.queued_of_pending h hr))
  | fetch => exact hp
  | relock hl hm => exact fun _ => hnot (.inr (ReplyStore.mayWrite_ok hm).1)
  | send hc' => exact fun _ => hp rfl
  | answer =>
    obtain ⟨-, -, e, earlier, he, -, -⟩ := hx
    rw [ReplyStore.answer_eq he]
    exact fun _ => hp rfl
  | _ => exact fun h => nomatch h

theorem ReplyStep.sends_uncanceled (hs : ReplyStep p s x s' x') (hx : ReplyKnows p s x)
    (h : ∀ e ∈ s.sends, e.canceled = false) (hp : x.holdsWrite = true → s.canceled = false) :
    ∀ e ∈ s'.sends, e.canceled = false := by
  have hchange : ∀ t : ReplyStore π, t.sends = s.sends → ∀ e ∈ t.cancelOperations.sends, e.canceled = false := by
    intro t ht
    unfold ReplyStore.cancelOperations
    split <;> exact fun e he => h e (ht ▸ he)
  cases hs with
  | complete hl hc => exact hchange _ rfl
  | select hl hc => exact hchange _ rfl
  | disconnect hl hc hd => exact hchange _ rfl
  | sweep =>
    unfold ReplyStore.sweep
    split <;> exact h
  | send hc =>
    intro e he
    obtain rfl | he := List.mem_cons.1 he
    · exact hp rfl
    · exact h e he
  | answer =>
    obtain ⟨-, -, e, earlier, he, -, -⟩ := hx
    rw [he] at h
    rw [ReplyStore.answer_eq he]
    intro e' he'
    obtain rfl | he' := List.mem_cons.1 he'
    · exact h e List.mem_cons_self
    · exact h e' (List.mem_cons_of_mem _ he')
  | _ => exact h

theorem CancelsKept.step {w w' : World π (ReplyStore π) ReplyPlace} (h : CancelsKept w)
    (hk : Knows ReplyKept ReplyKnows w) (hs : GuardedStep w p w') : CancelsKept w' := by
  obtain ⟨⟨ht⟩, hguard⟩ := hs
  have hx := hk.2 p
  refine ⟨ht.stopped hx h.stopped (h.places p), ht.sends_uncanceled hx h.sends (h.places p), fun q hq => ?_⟩
  by_cases hqp : q = p
  · subst hqp
    have hq' : (Function.update w.place q _ q).holdsWrite = true := hq
    rw [Function.update_self] at hq'
    exact ht.holds hx h.stopped (h.places q) hq'
  · have hq' : (Function.update w.place p _ q).holdsWrite = true := hq
    rw [Function.update_of_ne hqp] at hq'
    by_contra hcan
    have hne : _ ≠ w.store.canceled := fun he => hcan (he.trans (h.places q hq'))
    have hfree := hguard hne q hqp
    rw [hq'] at hfree
    cases hfree

/-- Whatever executions, commands and sweeps do in whatever order, and wherever they stop.  Nothing
is written after a cancel as long as sweeps cancel no operation that is about to be written. -/
theorem reply_written_once {w w' : World π (ReplyStore π) ReplyPlace} {ps : List π} (hw : ReplyQueued w)
    (hr : Run (Interleaved ReplyStep) w ps w') :
    RepliesSound w'.store ∧ (Run GuardedStep w ps w' → ∀ e ∈ w'.store.sends, e.canceled = false) := by
  refine ⟨(replies_kept.run hr hw.knows).1.toRepliesSound, fun hg => ?_⟩
  have hstart : CancelsKept w := by
    refine ⟨fun hc => ?_, ?_, fun q hq => hw.uncanceled⟩
    · rw [hw.uncanceled] at hc
      cases hc
    · rw [hw.unsent]
      exact fun e he => nomatch he
  have hrun : Knows ReplyKept ReplyKnows w' ∧ CancelsKept w' := by
    refine hg.invariant (I := fun w => Knows ReplyKept ReplyKnows w ∧ CancelsKept w) (fun _ _ _ hi hs => ?_) ⟨hw.knows, hstart⟩
    exact ⟨replies_kept.preserved hs.step hi.1, hi.2.step hi.1 hs⟩
  exact hrun.2.sends

/-! ## Two runs -/

/-- A reply to a review that has none, queued on an active connection. -/
def thankYou : ReplyOperation where
  connectionId := "conn"
  generation := 2
  kind := .put
  request := some "Thank you"
  expectedRevision := none
  state := .queued
  createdAt := 0

def thankYouWorld {π : Type} : World π (ReplyStore π) ReplyPlace where
  store :=
    { connection := some ⟨"conn", .active, 2⟩
      operation := thankYou
      reply := none
      lock := none
      clock := 0
      goal := some "Thank you"
      sends := []
      reads := []
      canceled := false
      writer := none }
  place _ := .idle

theorem thankYou_queued {π : Type} : ReplyQueued (π := π) thankYouWorld where
  idle _ := rfl
  queued := rfl
  goal := rfl
  unsent := rfl
  uncanceled := rfl
  unlocked := rfl
  unmarked := rfl

/-- One execution writes it while a scan looks at it and leaves it; when the reply is there, another one
finds the operation done. -/
theorem thankYou_sent : ∃ (w' : World Bool (ReplyStore Bool) ReplyPlace) (ps : List Bool),
    Run GuardedStep thankYouWorld ps w' ∧ w'.store.operation.state = .confirmed ∧
      w'.store.sends = [⟨2, false, some .ok⟩] ∧ RepliesSound w'.store ∧ ∀ e ∈ w'.store.sends, e.canceled = false := by
  have quiet : ∀ {p w w'}, Interleaved (@ReplyStep Bool _) w p w' → w'.store.canceled = w.store.canceled →
      GuardedStep w p w' := fun h he => ⟨h, fun hne => absurd he hne⟩
  have hr : Run GuardedStep thankYouWorld
      [true, false, false, false, false, true, false, false, false, true, false, true, true] _ :=
    .cons (quiet (.from rfl (@ReplyStep.scan Bool _ true _ rfl)) (by rfl)) <|
    .cons (quiet (.from rfl (@ReplyStep.lock Bool _ false _ rfl)) (by rfl)) <|
    .cons (quiet (.from rfl (@ReplyStep.read Bool _ false _ (by rfl) (by rfl))) (by rfl)) <|
    .cons (quiet (.from rfl (@ReplyStep.fetch Bool _ false _ thankYou)) (by rfl)) <|
    .cons (quiet (.from (x := .deciding thankYou none) rfl
      (@ReplyStep.mark Bool _ false _ thankYou none (some "Thank you") rfl (by decide) rfl rfl)) (by rfl)) <|
    .cons (quiet (.from rfl (@ReplyStep.keep Bool _ true _ thankYou)) (by rfl)) <|
    .cons (quiet (.from rfl (@ReplyStep.relock Bool _ false _ (by rfl) (by rfl))) (by rfl)) <|
    .cons (quiet (.from rfl (@ReplyStep.send Bool _ false _ ⟨"conn", .active, 2⟩ (by rfl))) (by rfl)) <|
    .cons (quiet (.from rfl (@ReplyStep.answer Bool _ false _ .ok)) (by rfl)) <|
    .cons (quiet (.from rfl (@ReplyStep.replied Bool _ true _ (some ⟨"Thank you", some "noon"⟩))) (by rfl)) <|
    .cons (quiet (.from rfl (@ReplyStep.commit Bool _ false _ .ok)) (by rfl)) <|
    .cons (quiet (.from rfl (@ReplyStep.lock Bool _ true _ rfl)) (by rfl)) <|
    .cons (quiet (.from rfl (@ReplyStep.ended Bool _ true _ rfl)) (by rfl)) .nil
  obtain ⟨hsound, hcancel⟩ := reply_written_once thankYou_queued (hr.mono fun _ _ _ hs => hs.step)
  exact ⟨_, _, hr, rfl, rfl, hsound, hcancel hr⟩

/-- A week after it was queued an execution is about to write; a sweep cancels it, and it is sent. -/
theorem canceled_reply_sent : ∃ (w' : World Bool (ReplyStore Bool) ReplyPlace) (ps : List Bool),
    ReplyQueued (π := Bool) thankYouWorld ∧ Run (Interleaved ReplyStep) thankYouWorld ps w' ∧
      w'.store.operation.state = .canceled ∧ ∃ e ∈ w'.store.sends, e.canceled = true := by
  have hr : Run (Interleaved ReplyStep) thankYouWorld [false, false, false, false, false, true, true, false] _ :=
    .cons (.from rfl (@ReplyStep.lock Bool _ false _ rfl)) <|
    .cons (.from rfl (@ReplyStep.read Bool _ false _ (by rfl) (by rfl))) <|
    .cons (.from rfl (@ReplyStep.fetch Bool _ false _ thankYou)) <|
    .cons (.from (x := .deciding thankYou none) rfl
      (@ReplyStep.mark Bool _ false _ thankYou none (some "Thank you") rfl (by decide) rfl rfl)) <|
    .cons (.from rfl (@ReplyStep.relock Bool _ false _ (by rfl) (by rfl))) <|
    .cons (.from rfl (@ReplyStep.tick Bool _ true _ sevenDays (by show (0 : Int) ≤ _; decide))) <|
    .cons (.from rfl (@ReplyStep.sweep Bool _ true _)) <|
    .cons (.from rfl (@ReplyStep.send Bool _ false _ ⟨"conn", .active, 2⟩ (by rfl))) .nil
  exact ⟨_, _, thankYou_queued, hr, rfl, ⟨2, true, none⟩, List.mem_cons_self, rfl⟩

end ClientBridge
