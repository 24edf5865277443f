import ClientBridge.Payments.WebhookEvents

/-!
# A webhook event is applied once

A row is processed exactly when some call's effects are committed, and only the holder of the
row commits (`EventKeeps`, `EventCallKnows`).  What fails is the lost race: a failed row kept
between a call's read and its insert passes for another call's success
(`overtaken_returns`, `overtaken_delivery`).
-/

namespace ClientBridge

open Runs

variable {π β : Type} [DecidableEq π]

/-- What holds of an event's row. -/
structure EventKeeps (s : WebhookStore π β) : Prop where
  once : s.effects.length ≤ 1
  processed : s.effects ≠ [] ↔ ∃ row, s.row = some row ∧ row.status = .processed
  /-- A failed row keeps its payload for a replay. -/
  payload : ∀ {row}, s.row = some row → row.status ≠ .processed → row.status = .failed ∧ row.payload ≠ none

/-- What a call knows of the row at its place. -/
structure EventCallKnows (p : π) (s : WebhookStore π β) (x : WebhookPlace) : Prop where
  held : x = .held ↔ s.holder = some p
  unapplied : x = .held → s.effects = []
  kept : ∀ {e}, x = .raised e → s.row ≠ none

omit [DecidableEq π] in
theorem EventKeeps.effects_nil {s : WebhookStore π β} (h : EventKeeps s)
    (hrow : ∀ row, s.row = some row → row.status ≠ .processed) : s.effects = [] := by
  by_contra hne
  obtain ⟨row, hr, hs⟩ := h.processed.1 hne
  exact hrow row hr hs

omit [DecidableEq π] in
/-- Keeping an event unapplied never takes a processed row back. -/
theorem EventKeeps.keep {s : WebhookStore π β} (h : EventKeeps s) (e : GatewayEvent β) :
    EventKeeps { s with row := some (keepUnapplied e s.row) } := by
  cases hr : s.row with
  | none =>
    have hn : s.effects = [] := h.effects_nil fun row hrow => by rw [hr] at hrow; cases hrow
    refine ⟨h.once, ?_, ?_⟩
    · constructor
      · exact fun hne => absurd hn hne
      · rintro ⟨row, hrow, hs⟩
        cases hrow
        cases hs
    · intro row hrow _
      cases hrow
      exact ⟨rfl, by simp [keepUnapplied]⟩
  | some row =>
    by_cases hp : row.status = .processed
    · simp only [keepUnapplied, hp, ne_eq, not_true_eq_false, if_false, ← hr]
      exact h
    · have hn : s.effects = [] := h.effects_nil fun r hrow => by rw [hr] at hrow; cases hrow; exact hp
      refine ⟨h.once, ?_, ?_⟩
      · constructor
        · exact fun hne => absurd hn hne
        · rintro ⟨r, hrow, hs⟩
          simp only [keepUnapplied, ne_eq, hp, not_false_eq_true, if_true] at hrow
          cases hrow
          cases hs
      · intro r hrow _
        simp only [keepUnapplied, ne_eq, hp, not_false_eq_true, if_true] at hrow
        cases hrow
        exact ⟨rfl, (h.payload hr hp).2⟩

omit [DecidableEq π] in
theorem EventKeeps.commit {s : WebhookStore π β} (h : s.effects = []) (e : GatewayEvent β) (p : π)
    (holder : Option π) :
    EventKeeps ⟨some (Webhook.process e s.row), holder, s.effects ++ [p]⟩ := by
  have hp : (Webhook.process e s.row).status = .processed := by
    cases s.row <;> rfl
  refine ⟨by simp [h], ?_, ?_⟩
  · constructor
    · exact fun _ => ⟨_, rfl, hp⟩
    · intro _
      simp
  · intro row hrow hne
    cases hrow
    exact absurd hp hne

/-- Whatever the calls do, in whatever order. -/
theorem event_kept (events : π → GatewayEvent β) :
    Kept (WebhookStep events) EventKeeps EventCallKnows where
  store := by
    intro p s x s' x' hs hI hJ
    cases hs with
    | reject hv => exact hI
    | readNone hv hrow => exact hI
    | readFailed hv hfree hrow hs => exact ⟨hI.once, hI.processed, hI.payload⟩
    | readDone hv hfree hrow hs => exact hI
    | flush => exact hI
    | insert hfree hrow => exact ⟨hI.once, hI.processed, hI.payload⟩
    | lost hrow => exact hI
    | failFresh retry => exact hI
    | failHeld retry => exact ⟨hI.once, hI.processed, hI.payload⟩
    | commit => exact EventKeeps.commit (hJ.unapplied rfl) _ _ _
    | keep hfree => exact hI.keep _
  own := by
    intro p s x s' x' hs hI hJ
    have hfree : x ≠ .held → s.holder ≠ some p := fun hx hh => hx (hJ.held.2 hh)
    cases hs with
    | reject hv => exact ⟨by simpa using hfree (by simp), by simp, by simp⟩
    | readNone hv hrow => exact ⟨by simpa using hfree (by simp), by simp, by simp⟩
    | @readFailed row hv hf hrow hs =>
      refine ⟨by simp, fun _ => ?_, by simp⟩
      exact hI.effects_nil fun r hr => by rw [hrow] at hr; cases hr; rw [hs]; simp
    | readDone hv hf hrow hs => exact ⟨by simp [hf], by simp, by simp⟩
    | flush => exact ⟨by simpa using hfree (by simp), by simp, by simp⟩
    | insert hf hrow =>
      refine ⟨by simp, fun _ => ?_, by simp⟩
      exact hI.effects_nil fun r hr => by rw [hrow] at hr; cases hr
    | lost hrow => exact ⟨by simpa using hfree (by simp), by simp, by simp⟩
    | failFresh retry => exact ⟨by simpa using hfree (by simp), by simp, by simp⟩
    | failHeld retry => exact ⟨by simp [WebhookStore.release, hJ.held.1 rfl], by simp, by simp⟩
    | commit => exact ⟨by simp [WebhookStore.release, hJ.held.1 rfl], by simp, by simp⟩
    | keep hf => exact ⟨by simp [hf], by simp, by simp⟩
  others := by
    intro p s x s' x' q y hs hq hI hJ hJ'
    have hpq : some p ≠ some q := fun e => hq (Option.some.inj e).symm
    cases hs with
    | reject hv => exact hJ'
    | readNone hv hrow => exact hJ'
    | readFailed hv hf hrow hs => exact ⟨by simp [hJ'.held, hf, Ne.symm hq], hJ'.unapplied, hJ'.kept⟩
    | readDone hv hf hrow hs => exact hJ'
    | flush => exact hJ'
    | insert hf hrow => exact ⟨by simp [hJ'.held, hf, Ne.symm hq], hJ'.unapplied, hJ'.kept⟩
    | lost hrow => exact hJ'
    | failFresh retry => exact hJ'
    | failHeld retry =>
      have hh := hJ.held.1 rfl
      exact ⟨by simp [hJ'.held, WebhookStore.release, hh, Ne.symm hq], hJ'.unapplied, hJ'.kept⟩
    | commit =>
      have hh := hJ.held.1 rfl
      have hy : y ≠ .held := fun hy => hpq (hh ▸ hJ'.held.1 hy)
      exact ⟨by simp [hJ'.held, WebhookStore.release, hh, Ne.symm hq], fun h => absurd h hy, by simp⟩
    | keep hf =>
      have hy : y ≠ .held := fun hy => by
        rw [hJ'.held.1 hy] at hf
        cases hf
      exact ⟨hJ'.held, fun h => absurd h hy, by simp⟩

theorem WebhookStep.effects_ne {events : π → GatewayEvent β} {p : π} {s s' : WebhookStore π β}
    {x x' : WebhookPlace} (h : WebhookStep events p s x s' x') (hs : s.effects ≠ []) : s'.effects ≠ [] := by
  cases h with
  | commit => simp
  | _ => exact hs

omit [DecidableEq π] in
/-- Before any call. -/
theorem webhookStart_knows :
    Knows EventKeeps EventCallKnows (webhookStart : World π (WebhookStore π β) WebhookPlace) := by
  refine ⟨⟨by simp [webhookStart], by simp [webhookStart], by simp [webhookStart]⟩, fun p => ?_⟩
  exact ⟨by simp [webhookStart], by simp [webhookStart], by simp [webhookStart]⟩

/-! ## Returning -/

/-- A call that returned leaves the effects committed, by itself or by another. -/
def ReturnsApplied (w : World π (WebhookStore π β) WebhookPlace) : Prop :=
  ∀ p, w.place p = .returned → w.store.effects ≠ []

omit [DecidableEq π] in
/-- A row that is not failed is processed. -/
theorem EventKeeps.effects_ne {s : WebhookStore π β} (h : EventKeeps s) {row : Webhook β}
    (hrow : s.row = some row) (hs : row.status ≠ .failed) : s.effects ≠ [] := by
  refine h.processed.2 ⟨row, hrow, ?_⟩
  by_contra hp
  exact hs (h.payload hrow hp).1

theorem ReturnsApplied.step {events : π → GatewayEvent β} {w w' : World π (WebhookStore π β) WebhookPlace}
    {p : π} (hw : Knows EventKeeps EventCallKnows w) (h : ReturnsApplied w) (hs : InTime events w p w') :
    ReturnsApplied w' := by
  obtain ⟨hs, hin⟩ := hs
  intro q hq
  obtain ⟨store, place⟩ := w
  cases hs with
  | @step s' x' hs =>
    by_cases hqp : q = p
    · subst hqp
      have hx : x' = .returned := by simpa using hq
      subst hx
      have hstep : WebhookStep events q store (place q) s' .returned := hs
      generalize hplace : place q = x at hstep
      cases hstep with
      | readDone hv hfree hrow hne => exact hw.1.effects_ne hrow hne
      | @lost row hrow =>
        refine hw.1.effects_ne hrow fun hfailed => hin ⟨hplace, row, hrow, hfailed⟩
      | commit => simp
    · exact hs.effects_ne (h q (by simpa [Function.update_of_ne hqp] using hq))

/-- An overtaken call returns although nothing is applied, whatever step it takes. -/
theorem overtaken_returns {events : π → GatewayEvent β} {w w' : World π (WebhookStore π β) WebhookPlace}
    {p : π} (hw : Knows EventKeeps EventCallKnows w) (h : Overtaken w p)
    (hs : Interleaved (WebhookStep events) w p w') : w'.place p = .returned ∧ w'.store.effects = [] := by
  obtain ⟨hplace, row, hrow, hfailed⟩ := h
  obtain ⟨store, place⟩ := w
  have hnil : store.effects = [] := hw.1.effects_nil fun r hr => by
    rw [hrow] at hr
    cases hr
    rw [hfailed]
    decide
  cases hs with
  | step hs =>
    simp only at hplace hrow hs
    rw [hplace] at hs
    cases hs with
    | insert hfree hnone =>
      rw [hrow] at hnone
      cases hnone
    | lost _ => exact ⟨by simp, hnil⟩

/-! ## Over any run -/

/-- A failed row is applied by the next call that gets it to itself. -/
theorem failed_applies {events : π → GatewayEvent β} {w : World π (WebhookStore π β) WebhookPlace}
    (hw : Knows EventKeeps EventCallKnows w) {row : Webhook β} (hrow : w.store.row = some row)
    (hfailed : row.status = .failed) (hfree : w.store.holder = none) {q : π} (hq : w.place q = .waiting)
    (hv : (events q).accepted) : ∃ w', Run (InTime events) w [q, q] w' ∧ w'.store.effects = [q] := by
  have hnil : w.store.effects = [] := hw.1.effects_nil fun r hr => by
    rw [hrow] at hr
    cases hr
    rw [hfailed]
    decide
  have hread : Interleaved (WebhookStep events) w q _ := .from hq (.readFailed hv hfree hrow hfailed)
  refine ⟨_, .cons ⟨hread, fun h => ?_⟩ (.cons ⟨.from (by simp) .commit, fun h => ?_⟩ .nil), ?_⟩
  · rw [h.1] at hq
    cases hq
  · have hx := h.1
    simp at hx
  · simp [hnil]

/-- What holds of an event wherever its calls are. -/
structure EventSafe (events : π → GatewayEvent β) (w : World π (WebhookStore π β) WebhookPlace) : Prop where
  once : w.store.effects.length ≤ 1
  returned : ReturnsApplied w
  /-- Unless it is processed, a failed row with its payload remains after a call that raised. -/
  raised : ∀ {p e}, w.place p = .raised e → ∃ row, w.store.row = some row ∧
    (row.status = .processed ∨ row.status = .failed ∧ row.payload ≠ none)
  /-- A later delivery or replay applies it. -/
  retried : ∀ {row}, w.store.row = some row → row.status = .failed → w.store.holder = none →
    ∀ {q}, w.place q = .waiting → (events q).accepted →
      ∃ w', Run (InTime events) w [q, q] w' ∧ w'.store.effects = [q]

/-- **A webhook event is applied exactly once**, in every run where no call is overtaken. -/
theorem events_apply_once {events : π → GatewayEvent β} {ps : List π}
    {w : World π (WebhookStore π β) WebhookPlace} (hrun : Run (InTime events) webhookStart ps w) :
    EventSafe events w := by
  obtain ⟨hknows, hreturned⟩ := hrun.invariant (I := fun w => Knows EventKeeps EventCallKnows w ∧ ReturnsApplied w)
    (fun _ _ _ hw hs => ⟨(event_kept events).preserved hs.1 hw.1, hw.2.step hw.1 hs⟩)
    ⟨webhookStart_knows, fun p hp => by cases hp⟩
  refine ⟨hknows.1.once, hreturned, fun {p e} hp => ?_, fun hrow hs hfree _ hq hv =>
    failed_applies hknows hrow hs hfree hq hv⟩
  have hne := (hknows.2 p).kept hp
  cases hrow : w.store.row with
  | none => exact absurd hrow hne
  | some row =>
    refine ⟨row, rfl, ?_⟩
    by_cases hpr : row.status = .processed
    · exact .inl hpr
    · exact .inr (hknows.1.payload hrow hpr)

/-- One event, delivered twice at the handlers' version. -/
def payoutPaid : Bool → GatewayEvent String := fun _ => ⟨"payout.paid", "po_1", false, some stripeApiVersion⟩

/-- The first delivery raises and keeps a failed row; the second finds it and applies the event. -/
theorem payoutPaid_applied : ∃ w : World Bool (WebhookStore Bool String) WebhookPlace,
    w.place true = .raised .other ∧ w.place false = .returned ∧ w.store.effects = [false] ∧
      EventSafe payoutPaid w := by
  have hstep : ∀ {w : World Bool (WebhookStore Bool String) WebhookPlace} {p w'},
      Interleaved (WebhookStep payoutPaid) w p w' → w.place p ≠ .inserting → InTime payoutPaid w p w' :=
    fun h hne => ⟨h, fun ho => hne ho.1⟩
  refine ⟨_, ?_, ?_, ?_, @events_apply_once Bool String _ payoutPaid _ _
    (.cons (hstep (.from (p := true) rfl (.readNone (by decide) rfl)) (by decide))
    (.cons (hstep (.from (p := true) rfl (.failFresh false)) (by decide))
    (.cons (hstep (.from (p := true) rfl (.keep rfl)) (by decide))
    (.cons (hstep (.from (p := false) rfl (.readFailed (by decide) rfl rfl rfl)) (by decide))
    (.cons (hstep (.from (p := false) rfl .commit) (by decide)) .nil)))))⟩
  · rfl
  · rfl
  · rfl

/-- Both deliveries find no row; one fails and keeps a failed row before the other inserts its own,
which takes the conflict for success. -/
theorem overtaken_delivery : ¬∀ (ps : List Bool) (w : World Bool (WebhookStore Bool String) WebhookPlace),
    Run (Interleaved (WebhookStep payoutPaid)) webhookStart ps w → ReturnsApplied w := by
  intro h
  refine h _ _
    (.cons (.from (p := true) rfl (.readNone (by decide) rfl))
    (.cons (.from (p := false) rfl (.readNone (by decide) rfl))
    (.cons (.from (p := false) rfl (.failFresh false))
    (.cons (.from (p := false) rfl (.keep rfl))
    (.cons (.from (p := true) rfl .flush)
    (.cons (.from (p := true) rfl (.lost rfl)) .nil)))))) true rfl rfl

end ClientBridge
