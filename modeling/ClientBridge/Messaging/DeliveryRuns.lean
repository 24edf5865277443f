import ClientBridge.Messaging.Deliveries

/-!
# What is sent of a delivery

Any number of workers dispatch one delivery, each stopping for any time or for good between any
two of its steps, while provider events come in.  A send starts only when every earlier one is
known not to have been delivered.  Nothing asks again between the commit of a claim and its send, so
once the delivery has an outcome no claim is drawn any more, but the send of the last one may still
start.
-/

namespace ClientBridge

open Runs

/-- What the history of a delivery's sends keeps to. -/
structure SendsOnce {τ : Type} (log : List (SendEvent τ)) : Prop where
  /-- A claim is sent under once. -/
  once : ∀ {pre c post}, log = pre ++ .started c :: post → .started c ∉ pre
  /-- Earlier sends ended in a known non-delivery. -/
  retried : ∀ {pre c post c'}, log = pre ++ .started c :: post → .started c' ∈ pre → .outcome (some c') .queued ∈ pre
  /-- After any other outcome only the send it is about can start. -/
  settled : ∀ {pre o state post c}, log = pre ++ .outcome o state :: post → state ≠ .queued →
    .started c ∈ post → o = some c

section
variable {τ : Type} {log : List (SendEvent τ)}

theorem SendsOnce.nil : SendsOnce ([] : List (SendEvent τ)) where
  once h := by simp at h
  retried h := by simp at h
  settled h := by simp at h

/-- An outcome is always in order. -/
theorem SendsOnce.outcome (h : SendsOnce log) (o : Option τ) (state : DeliveryState) :
    SendsOnce (log ++ [.outcome o state]) where
  once hlog := by
    obtain ⟨-, he, -⟩ | ⟨post', hlog, -⟩ := snoc_eq_append_cons hlog
    · cases he
    · exact h.once hlog
  retried hlog hc := by
    obtain ⟨-, he, -⟩ | ⟨post', hlog, -⟩ := snoc_eq_append_cons hlog
    · cases he
    · exact h.retried hlog hc
  settled hsnoc hstate hc := by
    obtain ⟨-, -, rfl⟩ | ⟨post', hlog, rfl⟩ := snoc_eq_append_cons hsnoc
    · cases hc
    · obtain hc | hc := List.mem_append.1 hc
      · exact h.settled hlog hstate hc
      · cases List.mem_singleton.1 hc

/-- A send whose claim was not sent under, when earlier sends were not delivered and every other
outcome is its own. -/
theorem SendsOnce.started (h : SendsOnce log) {c : τ} (hnew : .started c ∉ log)
    (hqueued : ∀ c', .started c' ∈ log → .outcome (some c') .queued ∈ log)
    (hown : ∀ o state, .outcome o state ∈ log → state ≠ .queued → o = some c) : SendsOnce (log ++ [.started c]) where
  once hlog := by
    obtain ⟨rfl, he, -⟩ | ⟨post', hlog, -⟩ := snoc_eq_append_cons hlog
    · cases he
      exact hnew
    · exact h.once hlog
  retried hlog hc := by
    obtain ⟨rfl, he, -⟩ | ⟨post', hlog, -⟩ := snoc_eq_append_cons hlog
    · exact hqueued _ hc
    · exact h.retried hlog hc
  settled hsnoc hstate hc := by
    obtain ⟨-, he, -⟩ | ⟨post', hlog, rfl⟩ := snoc_eq_append_cons hsnoc
    · cases he
    · obtain hc | hc := List.mem_append.1 hc
      · exact h.settled hlog hstate hc
      · cases List.mem_singleton.1 hc
        exact hown _ _ (hlog ▸ by simp) hstate

/-- A send that has started and has any other outcome is the last one. -/
theorem SendsOnce.last (h : SendsOnce log) {pre post : List (SendEvent τ)} {c : τ} {state : DeliveryState}
    (hlog : log = pre ++ .outcome (some c) state :: post) (hstate : state ≠ .queued) (hc : .started c ∈ pre) (c' : τ) :
    .started c' ∉ post := by
  intro hc'
  obtain rfl : c = c' := Option.some.inj (h.settled hlog hstate hc')
  obtain ⟨l, r, rfl⟩ := List.append_of_mem hc'
  have hlog : log = (pre ++ .outcome (some c) state :: l) ++ .started c :: r := by simp [hlog]
  exact h.once hlog (List.mem_append_left _ hc)

end

section
variable {τ : Type}

theorem Delivery.due_state {d : Delivery τ} {now : Int} (h : d.due now = true) :
    d.state = .queued ∨ d.state = .sending := by
  unfold Delivery.due at h
  rw [Bool.and_eq_true, Bool.or_eq_true, decide_eq_true_iff, decide_eq_true_iff] at h
  exact h.1

/-- A first transaction that settles the row: a claim it takes away is the row's. -/
theorem Delivery.begin_settled {d d' : Delivery τ} {info : DispatchInfo} {c : τ} {sent : Bool}
    (h : d.begin info c = (d', .settled sent)) : (d.state = .queued ∨ d.state = .sending) ∧ d'.state ≠ .queued ∧
      d'.state ≠ .sending ∧ (d'.claim = none ∨ d.state = .queued ∧ d'.claim = d.claim) := by
  unfold Delivery.begin at h
  split at h
  · cases h
  · rename_i hdue
    have hstate := Delivery.due_state (Bool.not_eq_false _ ▸ hdue)
    refine ⟨hstate, ?_⟩
    repeat' split at h
    all_goals cases h
    all_goals simp_all [Delivery.settle]

theorem Delivery.begin_claimed {d d' : Delivery τ} {info : DispatchInfo} {c : τ} (h : d.begin info c = (d', .claimed)) :
    d.state = .queued ∧ d'.state = .sending ∧ d'.claim = some c := by
  unfold Delivery.begin at h
  split at h
  · cases h
  · rename_i hdue
    have hstate := Delivery.due_state (Bool.not_eq_false _ ▸ hdue)
    repeat' split at h
    all_goals cases h
    simp_all

theorem SendResult.state_ne_sending (r : SendResult) : r.state ≠ .sending := by
  cases r <;> simp only [SendResult.state] <;> (repeat' split) <;> simp

variable [DecidableEq τ]

theorem Delivery.finish_written {d d' : Delivery τ} {c : τ} {now : Int} {r : SendResult}
    (h : d.finish c now r = (d', true)) : d.claim = some c ∧ d.state = .sending ∧ d'.claim = none ∧ d'.state = r.state := by
  unfold Delivery.finish at h
  split at h
  · cases h
  · rename_i hheld
    cases h
    simp only [not_or, not_not] at hheld
    exact ⟨hheld.1, hheld.2, rfl, rfl⟩

theorem Delivery.finish_lost {d : Delivery τ} {c : τ} {now : Int} {r : SendResult} (h : (d.finish c now r).2 = false) :
    (d.finish c now r).1 = d ∧ (d.claim ≠ some c ∨ d.state ≠ .sending) := by
  unfold Delivery.finish at h ⊢
  split
  · exact ⟨rfl, ‹_›⟩
  · rename_i hheld
    rw [if_neg hheld] at h
    cases h

omit [DecidableEq τ] in
theorem Delivery.report_some {d d' : Delivery τ} {e : EmailEvent} (h : d.report e = some d') :
    d'.claim = none ∧ d'.state ≠ .queued ∧ d'.state ≠ .sending := by
  unfold Delivery.report at h
  split at h
  · obtain ⟨state, hstate, rfl⟩ := Option.map_eq_some_iff.1 h
    refine ⟨rfl, ?_⟩
    show state ≠ .queued ∧ state ≠ .sending
    unfold EmailEvent.state at hstate
    split at hstate
    · cases hstate
      simp
    split at hstate
    · cases hstate
      simp
    split at hstate <;> cases hstate
    simp
  · cases h

end

/-! ## Invariants -/

/-- Neither waiting to be sent nor claimed for a send. -/
def Delivery.Settled {τ : Type} (d : Delivery τ) : Prop := d.state ≠ .queued ∧ d.state ≠ .sending

section
variable {π τ : Type} {s s' : DeliveryStore π τ} {x x' y : DispatchPlace τ} {p q : π}

/-- No send but that of `claim` is under way, and nothing else was recorded than retries. -/
structure Undelivered (log : List (SendEvent τ)) (claim : Option τ) : Prop where
  others : ∀ c, .started c ∈ log → claim ≠ some c → .outcome (some c) .queued ∈ log
  queued : ∀ o state, .outcome o state ∈ log → state = .queued

/-- What the row keeps to. -/
structure DeliveryKeeps (s : DeliveryStore π τ) : Prop where
  sends : SendsOnce s.log
  unissued : ∀ c, s.issued c = none → .started c ∉ s.log
  claim : s.row.claim = if s.row.state = .sending then s.last else none
  undelivered : s.row.state = .queued ∨ s.row.state = .sending → Undelivered s.log s.row.claim

/-- What a worker knows before it starts its send: its claim is the last one, every other send
was not delivered, and every other outcome is about its own send. -/
structure Unstarted (s : DeliveryStore π τ) (c : τ) : Prop where
  last : s.last = some c
  claimed : s.row.state ≠ .queued
  new : .started c ∉ s.log
  others : ∀ c', .started c' ∈ s.log → .outcome (some c') .queued ∈ s.log
  own : ∀ o state, .outcome o state ∈ s.log → state ≠ .queued → o = some c

def WorkerKnows (p : π) (s : DeliveryStore π τ) (x : DispatchPlace τ) : Prop :=
  (∀ c, x.claim = some c → s.issued c = some p) ∧ ∀ c, x = .claimed c → Unstarted s c

theorem DeliveryKeeps.not_sending (h : DeliveryKeeps s) (hstate : s.row.state ≠ .sending) : s.row.claim = none := by
  rw [h.claim, if_neg hstate]

theorem DeliveryKeeps.sending (h : DeliveryKeeps s) {c : τ} (hc : s.row.claim = some c) :
    s.row.state = .sending ∧ s.last = some c := by
  have hclaim := h.claim
  rw [hc] at hclaim
  split at hclaim
  · exact ⟨‹_›, hclaim.symm⟩
  · cases hclaim

theorem Undelivered.outcome {log : List (SendEvent τ)} {claim : Option τ} (h : Undelivered log claim) :
    Undelivered (log ++ [.outcome claim .queued]) none where
  others c hc _ := by
    obtain hc | hc := List.mem_append.1 hc
    · by_cases hclaim : claim = some c
      · rw [hclaim]
        simp
      · exact List.mem_append_left _ (h.others c hc hclaim)
    · cases List.mem_singleton.1 hc
  queued o state ho := by
    obtain ho | ho := List.mem_append.1 ho
    · exact h.queued o state ho
    · cases List.mem_singleton.1 ho
      rfl

/-- A transaction that writes an outcome: a retry is that of the send the row was claimed for. -/
theorem DeliveryKeeps.outcome (h : DeliveryKeeps s) {o : Option τ} (hlog : s'.log = s.log ++ [.outcome o s'.row.state])
    (hissued : s'.issued = s.issued) (hclaim : s'.row.claim = none) (hsending : s'.row.state ≠ .sending)
    (hqueued : s'.row.state = .queued → s.row.state = .sending ∧ s.row.claim = o) : DeliveryKeeps s' where
  sends := hlog ▸ h.sends.outcome o _
  unissued c hc := by
    rw [hlog]
    simpa using h.unissued c (hissued ▸ hc)
  claim := by rw [hclaim, if_neg hsending]
  undelivered hstate := by
    have hstate := hstate.resolve_right hsending
    obtain ⟨hs, rfl⟩ := hqueued hstate
    rw [hlog, hclaim, hstate]
    exact (h.undelivered (.inr hs)).outcome

theorem Unstarted.outcome {c : τ} (h : Unstarted s c) {o : Option τ}
    (hlog : s'.log = s.log ++ [.outcome o s'.row.state]) (hlast : s'.last = s.last) (hqueued : s'.row.state ≠ .queued)
    (ho : o = some c) : Unstarted s' c where
  last := hlast.trans h.last
  claimed := hqueued
  new := by
    rw [hlog]
    simpa using h.new
  others c' hc' := by
    rw [hlog] at hc' ⊢
    exact List.mem_append_left _ (h.others c' (by simpa using hc'))
  own o' state ho' hstate := by
    rw [hlog] at ho'
    obtain ho' | ho' := List.mem_append.1 ho'
    · exact h.own o' state ho' hstate
    · cases List.mem_singleton.1 ho'
      exact ho

variable [DecidableEq τ]

theorem DeliveryStep.keeps (hs : DeliveryStep p s x s' x') (h : DeliveryKeeps s) (hx : WorkerKnows p s x) :
    DeliveryKeeps s' := by
  cases hs with
  | settle info c hbegin =>
    obtain ⟨-, hqueued, hsending, hclaim⟩ := Delivery.begin_settled hbegin
    refine h.outcome rfl rfl ?_ hsending (fun hq => absurd hq hqueued)
    obtain hclaim | ⟨hstate, hclaim⟩ := hclaim
    · exact hclaim
    · exact hclaim.trans (h.not_sending (by simp [hstate]))
  | claim info c hc hbegin =>
    obtain ⟨hstate, hstate', hclaim⟩ := Delivery.begin_claimed hbegin
    have hund := h.undelivered (.inl hstate)
    refine ⟨h.sends, fun c' hc' => ?_, ?_, fun _ => ⟨fun c' hc' _ => ?_, hund.queued⟩⟩
    · refine h.unissued c' ?_
      by_cases hcc : c' = c
      · rw [hcc, hc]
      · change Function.update s.issued c (some p) c' = none at hc'
        rwa [Function.update_of_ne hcc] at hc'
    · rw [if_pos hstate', hclaim]
    · exact hund.others c' hc' (by simp [h.not_sending (by simp [hstate])])
  | start c =>
    have hc := hx.2 c rfl
    refine ⟨h.sends.started hc.new hc.others hc.own, fun c' hc' => ?_, h.claim, fun hstate => ⟨fun c' hc' hne => ?_, ?_⟩⟩
    · have hissued := hx.1 c rfl
      have hne : c' ≠ c := by
        rintro rfl
        rw [hc'] at hissued
        cases hissued
      simpa [hne] using h.unissued c' hc'
    · have hclaim : s.row.claim = some c := by
        rw [h.claim, if_pos (hstate.resolve_left hc.claimed), hc.last]
      have hc' : .started c' ∈ s.log := by
        obtain hc' | hc' := List.mem_append.1 hc'
        · exact hc'
        · cases List.mem_singleton.1 hc'
          exact absurd hclaim hne
      exact List.mem_append_left _ (hc.others c' hc')
    · intro o state ho
      exact (h.undelivered hstate).queued o state (by simpa using ho)
  | answer c r => exact h
  | finish c r now hfinish =>
    obtain ⟨hclaim, hstate, hclaim', hstate'⟩ := Delivery.finish_written hfinish
    exact h.outcome rfl rfl hclaim' (hstate' ▸ r.state_ne_sending) (fun _ => ⟨hstate, hclaim⟩)
  | lost c r now hfinish =>
    rw [(Delivery.finish_lost hfinish).1]
    exact h
  | report svixId e hnew hfinds hreport =>
    obtain ⟨hclaim, hqueued, hsending⟩ := Delivery.report_some hreport
    exact h.outcome rfl rfl hclaim hsending (fun hq => absurd hq hqueued)
  | unreported svixId hnew => exact ⟨h.sends, h.unissued, h.claim, h.undelivered⟩
  | crash => exact h

theorem DeliveryStep.own (hs : DeliveryStep p s x s' x') (h : DeliveryKeeps s) (hx : WorkerKnows p s x) :
    WorkerKnows p s' x' := by
  cases hs with
  | claim info c hc hbegin =>
    obtain ⟨hstate, hstate', hclaim⟩ := Delivery.begin_claimed hbegin
    have hund := h.undelivered (.inl hstate)
    refine ⟨fun c' hc' => ?_, fun c' hc' => ?_⟩
    · cases hc'
      exact Function.update_self ..
    · cases hc'
      refine ⟨rfl, by simp [hstate'], h.unissued c hc, fun c' hc' => ?_, fun o state ho hne => ?_⟩
      · exact hund.others c' hc' (by simp [h.not_sending (by simp [hstate])])
      · exact absurd (hund.queued o state ho) hne
  | start c => exact ⟨hx.1, by simp⟩
  | answer c r => exact ⟨hx.1, by simp⟩
  | settle | finish | lost | report | unreported | crash => simp [WorkerKnows, DispatchPlace.claim]

theorem DeliveryStep.others (hs : DeliveryStep p s x s' x') (hne : q ≠ p) (h : DeliveryKeeps s) (hx : WorkerKnows p s x)
    (hy : WorkerKnows q s y) : WorkerKnows q s' y := by
  obtain ⟨hissued, hunstarted⟩ := hy
  cases hs with
  | settle info c hbegin =>
    obtain ⟨hstate, hqueued, -⟩ := Delivery.begin_settled hbegin
    refine ⟨hissued, fun c' hc' => ?_⟩
    have hc' := hunstarted c' hc'
    refine hc'.outcome rfl rfl hqueued ?_
    rw [h.claim, if_pos (hstate.resolve_left hc'.claimed), hc'.last]
  | claim info c hc hbegin =>
    obtain ⟨hstate, -⟩ := Delivery.begin_claimed hbegin
    refine ⟨fun c' hc' => ?_, fun c' hc' => absurd hstate (hunstarted c' hc').claimed⟩
    have hcc : c' ≠ c := by
      rintro rfl
      rw [hissued c' hc'] at hc
      cases hc
    show Function.update s.issued c (some p) c' = some q
    rw [Function.update_of_ne hcc]
    exact hissued c' hc'
  | start c =>
    refine ⟨hissued, fun c' hc' => ?_⟩
    -- the last claim has one holder
    have hlast := (hunstarted c' hc').last
    rw [(hx.2 c rfl).last] at hlast
    cases hlast
    have hq := hissued c (hc' ▸ rfl)
    rw [hx.1 c rfl] at hq
    cases hq
    exact absurd rfl hne
  | answer c r => exact ⟨hissued, hunstarted⟩
  | finish c r now hfinish =>
    obtain ⟨hclaim, hstate, -⟩ := Delivery.finish_written hfinish
    refine ⟨hissued, fun c' hc' => ?_⟩
    have hlast := (hunstarted c' hc').last
    rw [(h.sending hclaim).2] at hlast
    cases hlast
    have hq := hissued c (hc' ▸ rfl)
    rw [hx.1 c rfl] at hq
    cases hq
    exact absurd rfl hne
  | lost c r now hfinish =>
    rw [(Delivery.finish_lost hfinish).1]
    exact ⟨hissued, hunstarted⟩
  | report svixId e hnew hfinds hreport =>
    obtain ⟨-, hqueued, -⟩ := Delivery.report_some hreport
    exact ⟨hissued, fun c' hc' => (hunstarted c' hc').outcome rfl rfl hqueued (hunstarted c' hc').last⟩
  | unreported svixId hnew =>
    exact ⟨hissued, fun c' hc' => ⟨(hunstarted c' hc').last, (hunstarted c' hc').claimed, (hunstarted c' hc').new,
      (hunstarted c' hc').others, (hunstarted c' hc').own⟩⟩
  | crash => exact ⟨hissued, hunstarted⟩

theorem delivery_kept : Kept (DeliveryStep (π := π) (τ := τ)) DeliveryKeeps WorkerKnows :=
  ⟨fun hs h hx => hs.keeps h hx, fun hs h hx => hs.own h hx, fun hs hne h hx hy => hs.others hne h hx hy⟩

/-- A claim the row lost does not come back. -/
theorem DeliveryStep.stays_lost (hs : DeliveryStep p s x s' x') {c : τ} (h : s.issued c ≠ none ∧ s.row.claim ≠ some c) :
    s'.issued c ≠ none ∧ s'.row.claim ≠ some c := by
  obtain ⟨hissued, hlost⟩ := h
  cases hs with
  | settle info c' hbegin =>
    obtain ⟨-, -, -, hclaim⟩ := Delivery.begin_settled hbegin
    refine ⟨hissued, ?_⟩
    obtain hclaim | ⟨-, hclaim⟩ := hclaim
    · exact fun h => nomatch hclaim.symm.trans h
    · exact fun h => hlost (hclaim.symm.trans h)
  | claim info c' hc' hbegin =>
    obtain ⟨-, -, hclaim⟩ := Delivery.begin_claimed hbegin
    have hcc : c ≠ c' := fun h => hissued (h ▸ hc')
    refine ⟨?_, fun h => hcc (Option.some.inj (h.symm.trans hclaim))⟩
    show Function.update s.issued c' (some p) c ≠ none
    rwa [Function.update_of_ne hcc]
  | start c' => exact ⟨hissued, hlost⟩
  | answer c' r => exact ⟨hissued, hlost⟩
  | finish c' r now hfinish =>
    obtain ⟨-, -, hclaim, -⟩ := Delivery.finish_written hfinish
    exact ⟨hissued, fun h => nomatch hclaim.symm.trans h⟩
  | lost c' r now hfinish =>
    rw [(Delivery.finish_lost hfinish).1]
    exact ⟨hissued, hlost⟩
  | report svixId e hnew hfinds hreport =>
    obtain ⟨hclaim, -⟩ := Delivery.report_some hreport
    exact ⟨hissued, fun h => nomatch hclaim.symm.trans h⟩
  | unreported svixId hnew => exact ⟨hissued, hlost⟩
  | crash => exact ⟨hissued, hlost⟩

/-- A dispatch whose claim the row lost writes nothing. -/
theorem DeliveryStep.lost_row (hs : DeliveryStep p s x s' x') {c : τ} (hx : x.claim = some c)
    (hlost : s.row.claim ≠ some c) : s'.row = s.row := by
  cases hs with
  | settle | claim | report | unreported => cases hx
  | start | answer | crash => rfl
  | finish c' r now hfinish =>
    obtain ⟨hclaim, -⟩ := Delivery.finish_written hfinish
    exact absurd (hclaim.trans hx) hlost
  | lost c' r now hfinish => exact (Delivery.finish_lost hfinish).1

/-- A row with any other outcome than a retry keeps one, and no claim is drawn for it. -/
theorem DeliveryStep.stays_settled (hs : DeliveryStep p s x s' x') {issued : τ → Option π}
    (h : s.row.Settled ∧ s.issued = issued) : s'.row.Settled ∧ s'.issued = issued := by
  obtain ⟨⟨hqueued, hsending⟩, hissued⟩ := h
  cases hs with
  | settle info c hbegin =>
    obtain ⟨hstate, -⟩ := Delivery.begin_settled hbegin
    exact absurd hstate (not_or.2 ⟨hqueued, hsending⟩)
  | claim info c hc hbegin => exact absurd (Delivery.begin_claimed hbegin).1 hqueued
  | finish c r now hfinish => exact absurd (Delivery.finish_written hfinish).2.1 hsending
  | lost c r now hfinish =>
    rw [(Delivery.finish_lost hfinish).1]
    exact ⟨⟨hqueued, hsending⟩, hissued⟩
  | report svixId e hnew hfinds hreport => exact ⟨(Delivery.report_some hreport).2, hissued⟩
  | start | answer | unreported | crash => exact ⟨⟨hqueued, hsending⟩, hissued⟩

end

/-! ## Over any run -/

section
variable {π τ : Type} [DecidableEq π] [DecidableEq τ]

/-- A delivery just queued, before any worker. -/
def deliveryStart (id : String) (businessId : Option String) (channel : Channel) (messageId : Option String) (now : Int)
    (message : InboxMessage) (webhooks : List String) : World π (DeliveryStore π τ) (DispatchPlace τ) :=
  ⟨⟨.enqueued id businessId channel messageId now, message, webhooks, fun _ => none, none, []⟩, fun _ => .idle⟩

/-- What holds of a delivery wherever its workers are. -/
structure DeliverySafe (w : World π (DeliveryStore π τ) (DispatchPlace τ)) : Prop where
  /-- A send starts only when every earlier one ended in a known non-delivery. -/
  retried : ∀ {pre c post c'}, w.store.log = pre ++ .started c :: post → .started c' ∈ pre →
    .outcome (some c') .queued ∈ pre
  /-- Once a send has another outcome no further send starts. -/
  settled : ∀ {pre c state post}, w.store.log = pre ++ .outcome (some c) state :: post → state ≠ .queued →
    .started c ∈ pre → ∀ c', .started c' ∉ post
  /-- Whatever outcome the row took, only the send it is about can start after it. -/
  outcome : ∀ {pre o state post c}, w.store.log = pre ++ .outcome o state :: post → state ≠ .queued →
    .started c ∈ post → o = some c
  /-- After it no claim is drawn. -/
  claims : w.store.row.Settled → ∀ {ps w'}, Run (Interleaved DeliveryStep) w ps w' → w'.store.row.Settled ∧
    w'.store.issued = w.store.issued
  /-- A worker whose claim the row lost never changes the row. -/
  lost : ∀ {p c}, (w.place p).claim = some c → w.store.row.claim ≠ some c →
    ∀ {ps w'}, Run (Interleaved DeliveryStep) w ps w' → (w'.place p).claim = some c →
      ∀ {w''}, Interleaved DeliveryStep w' p w'' → w''.store.row = w'.store.row

/-- **A delivery is sent at most once per unknown outcome**, whatever its workers do. -/
theorem deliveries_sent_once {id : String} {businessId : Option String} {channel : Channel} {messageId : Option String}
    {now : Int} {message : InboxMessage} {webhooks : List String} {ps : List π}
    {w : World π (DeliveryStore π τ) (DispatchPlace τ)}
    (hrun : Run (Interleaved DeliveryStep) (deliveryStart id businessId channel messageId now message webhooks) ps w) :
    DeliverySafe w := by
  have hstart : Knows DeliveryKeeps WorkerKnows
      (deliveryStart id businessId channel messageId now message webhooks : World π (DeliveryStore π τ) _) := by
    refine ⟨⟨.nil, fun c _ => List.not_mem_nil, rfl, fun _ => ⟨?_, ?_⟩⟩, fun p => ⟨?_, ?_⟩⟩
    · intro c hc
      cases hc
    · intro o state ho
      cases ho
    · intro c hc
      cases hc
    · intro c hc
      cases hc
  obtain ⟨hkeeps, hplaces⟩ := delivery_kept.run hrun hstart
  refine ⟨hkeeps.sends.retried, fun hlog hstate hc => hkeeps.sends.last hlog hstate hc, hkeeps.sends.settled, ?_, ?_⟩
  · intro hsettled ps' w' hrun'
    exact hrun'.invariant (I := fun v => v.store.row.Settled ∧ v.store.issued = w.store.issued)
      (fun _ _ _ hv hs => by
        cases hs with
        | step hs => exact hs.stays_settled hv) ⟨hsettled, rfl⟩
  intro p c hp hlost ps' w' hrun' hp' w'' hs
  have hissued : w.store.issued c ≠ none := by
    rw [(hplaces p).1 c hp]
    simp
  obtain ⟨-, hlost'⟩ := hrun'.invariant (I := fun w => w.store.issued c ≠ none ∧ w.store.row.claim ≠ some c)
    (fun _ _ _ hw hs => by
      cases hs with
      | step hs => exact hs.stays_lost hw) ⟨hissued, hlost⟩
  cases hs with
  | step hs => exact hs.lost_row hp' hlost'

end

/-- The first send is turned away with a 429; the second outlives its lease. -/
theorem reminder_sent_once : ∃ w : World Bool (DeliveryStore Bool Nat) (DispatchPlace Nat),
    w.store.log = [.started 0, .outcome (some 0) .queued, .started 1, .outcome (some 1) .ambiguous] ∧
      w.store.row.state = .ambiguous ∧ DeliverySafe w := by
  refine ⟨_, ?_, ?_, @deliveries_sent_once Bool Nat _ _ "del_1" (some "biz_1") .sms (some "msg_1") 0 ⟨.queued, none⟩ [] _ _
    (.cons (.from (p := true) rfl (.claim ⟨0, true, false, false, false⟩ 0 rfl rfl))
    (.cons (.from (p := true) rfl (.start 0))
    (.cons (.from (p := true) rfl (.answer 0 (.httpStatus 429)))
    (.cons (.from (p := true) rfl (.finish 0 (.httpStatus 429) 2 rfl))
    (.cons (.from (p := false) rfl (.claim ⟨62, true, false, false, false⟩ 1 rfl rfl))
    (.cons (.from (p := false) rfl (.start 1))
    (.cons (.from (p := true) rfl (.settle ⟨362, true, false, false, false⟩ 2 rfl))
    (.cons (.from (p := false) rfl (.answer 1 (.sent (some "SM1"))))
    (.cons (.from (p := false) rfl (.lost 1 (.sent (some "SM1")) 400 rfl)) .nil)))))))))⟩
  · rfl
  · rfl

/-- A first send is turned away with a 429.  The worker of the second outlives its lease before it starts, the row is
marked ambiguous, and the send goes out after that. -/
theorem stalled_send_starts : ¬ ∀ (ps : List Bool) (w : World Bool (DeliveryStore Bool Nat) (DispatchPlace Nat)),
    Run (Interleaved DeliveryStep) (deliveryStart "del_1" (some "biz_1") .sms (some "msg_1") 0 ⟨.queued, none⟩ []) ps w →
      ∀ pre o state post, w.store.log = pre ++ .outcome o state :: post → state ≠ .queued →
        ∀ c, .started c ∉ post := by
  intro h
  exact h _ _
    (.cons (.from (p := true) rfl (.claim ⟨0, true, false, false, false⟩ 0 rfl rfl))
    (.cons (.from (p := true) rfl (.start 0))
    (.cons (.from (p := true) rfl (.answer 0 (.httpStatus 429)))
    (.cons (.from (p := true) rfl (.finish 0 (.httpStatus 429) 2 rfl))
    (.cons (.from (p := false) rfl (.claim ⟨62, true, false, false, false⟩ 1 rfl rfl))
    (.cons (.from (p := true) rfl (.settle ⟨362, true, false, false, false⟩ 2 rfl))
    (.cons (.from (p := false) rfl (.start 1)) .nil)))))))
    [.started 0, .outcome (some 0) .queued] (some 1) .ambiguous [.started 1] rfl (by decide) 1 List.mem_cons_self

end ClientBridge
