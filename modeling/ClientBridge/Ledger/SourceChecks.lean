import ClientBridge.Ledger.BalanceDrift

/-!
# Checks of Stripe's sources

Reconciliation repairs each source of Stripe's transactions, compares Stripe's net with the Stripe legs of
the source's journals, and keeps what differs as the source's finding.  The balance check that follows
subtracts the open findings.  What a source's finding says is decided by the way its check went
(`SourceCheck.difference`), so the residual is the balances' difference less those (`reconciled_residual`).
A repair that raises leaves a finding without a ledger amount, whatever the books hold for the source.
-/

namespace ClientBridge

/-- The entries of a business's Stripe account: reference and cents. -/
abbrev StripeLegs := List (String × Int)

def StripeLegs.total (legs : StripeLegs) : Int := (legs.map (·.2)).sum

/-- The entries under some references. -/
def StripeLegs.under (legs : StripeLegs) (refs : List String) : Int :=
  ((legs.filter fun e => decide (e.1 ∈ refs)).map (·.2)).sum

/-- One of Stripe's balance transactions. -/
structure StripeRow where
  id : String
  source : Option String
  net : Option Int
  currency : String
  created : Option Int
  deriving DecidableEq, Repr

def stripeNet (transactions : List StripeRow) : Int :=
  (transactions.filterMap fun r => if r.currency = "cad" then r.net else none).sum

inductive CheckError where
  | retryLater | raised
  deriving DecidableEq, Repr

/-- What the repair of a source comes to: the Stripe account with what it booked, the references of the
source's journals, and whether the source is a refund that is still pending. -/
structure Repaired where
  legs : StripeLegs
  refs : List String
  pendingRefund : Bool

/-- A source whose transactions are checked, with what the handlers and Stripe answer.  `refs` are the
references the source's journals are booked under. -/
structure SourceCheck where
  source : String
  transactions : List StripeRow
  windowed : Bool
  refs : List String
  repair : StripeLegs → List StripeRow → Except CheckError Repaired
  history : Except CheckError (List StripeRow)

namespace SourceCheck

def amounts (source : String) (transactions : List StripeRow) (ledgerCents : Int) : DriftChanges :=
  .amounts source (transactions.map (·.id)) ledgerCents (stripeNet transactions)

/-- Repair a source and compare it (`_source_changes`). -/
def changes (c : SourceCheck) (legs : StripeLegs) (transactions : List StripeRow) :
    Except CheckError (StripeLegs × Option DriftChanges) := do
  let repaired ← c.repair legs transactions
  -- Stripe debits a pending refund at once; we book it when it settles
  if repaired.pendingRefund then return (repaired.legs, none)
  let actual := repaired.legs.under repaired.refs
  if repaired.refs ≠ [] ∧ actual = stripeNet transactions then return (repaired.legs, none)
  else return (repaired.legs, some (amounts c.source transactions actual))

/-- A check that got through, or the error it raised with the transactions it was comparing then. -/
inductive Outcome where
  | compared (legs : StripeLegs) (changes : Option DriftChanges)
  | failed (error : CheckError) (transactions : List StripeRow)

/-- The body of `_reconcile_source`: a source that does not match in the window is compared whole. -/
def outcome (c : SourceCheck) (legs : StripeLegs) : Outcome :=
  match c.changes legs c.transactions with
  | .error e => .failed e c.transactions
  | .ok (legs, none) => .compared legs none
  | .ok (legs, some changes) =>
    if c.windowed ∧ (c.transactions.head?.bind (·.source)).isSome then
      match c.history with
      | .error e => .failed e c.transactions
      | .ok [] => .compared legs (some changes)
      | .ok (row :: rows) =>
        match c.changes legs (row :: rows) with
        | .error e => .failed e (row :: rows)
        | .ok (legs, changes) => .compared legs changes
    else .compared legs (some changes)

end SourceCheck

/-- How long a source may answer `retry_later` (`_DEFER_LIMIT`), in seconds. -/
def deferLimit : Int := 24 * 3600

/-- Whether a source whose repair raised is left for a later run. -/
def deferred (now : Int) (error : CheckError) (transactions : List StripeRow) : Bool :=
  match error, transactions.head?.bind (·.created) with
  | .retryLater, some created => decide (now - deferLimit < created)
  | _, _ => false

def failureAction : CheckError → DriftAction
  | .retryLater => .transactionDrift
  | .raised => .transactionFailed

/-- The check of one source (`_reconcile_source`): its finding, and the Stripe account after it. -/
def reconcileSource (now : Int) (c : SourceCheck) (log : DriftLog) (legs : StripeLegs) : DriftLog × StripeLegs :=
  match c.outcome legs with
  | .compared legs changes => ((log.sourceDrift c.source changes .transactionDrift).1, legs)
  | .failed e transactions =>
    -- what the repair booked is rolled back
    if deferred now e transactions then (log, legs)
    else ((log.sourceDrift c.source (some (SourceCheck.amounts c.source transactions 0)) (failureAction e)).1, legs)

/-- The sources of a run, one after the other (`reconcile_stripe_transactions`). -/
def reconcileSources (now : Int) : List SourceCheck → DriftLog → StripeLegs → DriftLog × StripeLegs
  | [], log, legs => (log, legs)
  | c :: cs, log, legs =>
    reconcileSources now cs (reconcileSource now c log legs).1 (reconcileSource now c log legs).2

/-! ## What a finding says -/

/-- What Stripe holds for a source beyond the books, as recorded. -/
def DriftChanges.difference : DriftChanges → Int
  | .amounts _ _ ledgerCents stripeCents => stripeCents - ledgerCents
  | _ => 0

/-- The difference a source's open finding records; none without one. -/
def DriftLog.recorded (log : DriftLog) (source : String) : Int :=
  match log.active source with
  | some f => f.changes.difference
  | none => 0

/-- What Stripe holds beyond the books for a source that was repaired; a pending refund is expected. -/
def Repaired.left (r : Repaired) (transactions : List StripeRow) : Int :=
  if r.pendingRefund then 0 else stripeNet transactions - r.legs.under r.refs

def Repaired.matches (r : Repaired) (transactions : List StripeRow) : Bool :=
  r.pendingRefund || decide (r.refs ≠ [] ∧ r.legs.under r.refs = stripeNet transactions)

/-- A repair that raised counts with Stripe's net and no ledger amount; one that is left for later counts
as before. -/
def failureLeft (now : Int) (e : CheckError) (transactions : List StripeRow) (before : Int) : Int :=
  if deferred now e transactions then before else stripeNet transactions

/-- What the check of a source finds, when `before` is what its open finding recorded. -/
def SourceCheck.difference (now : Int) (c : SourceCheck) (legs : StripeLegs) (before : Int) : Int :=
  match c.repair legs c.transactions with
  | .error e => failureLeft now e c.transactions before
  | .ok r =>
    if r.matches c.transactions || !(c.windowed && (c.transactions.head?.bind (·.source)).isSome) then
      r.left c.transactions
    else match c.history with
      | .error e => failureLeft now e c.transactions before
      | .ok [] => r.left c.transactions
      | .ok (row :: rows) =>
        match c.repair r.legs (row :: rows) with
        | .error e => failureLeft now e (row :: rows) before
        | .ok r => r.left (row :: rows)

/-- The differences of the sources of a run. -/
def differences (now : Int) : List SourceCheck → DriftLog → StripeLegs → List Int
  | [], _, _ => []
  | c :: cs, log, legs =>
    c.difference now legs (log.recorded c.source) ::
      differences now cs (reconcileSource now c log legs).1 (reconcileSource now c log legs).2

namespace DriftLog

variable {log : DriftLog}

/-- The audits are numbered by their place, and a note names an audit before it. -/
structure Logged (log : DriftLog) : Prop where
  numbered : ∀ n (r : DriftAudit), log[n]? = some r → r.id = n
  notes : ∀ r ∈ log, ∀ id, r.entity = .finding id → id < log.length

theorem Logged.id_lt (h : Logged log) {r : DriftAudit} (hr : r ∈ log) : r.id < log.length := by
  obtain ⟨n, hn⟩ := List.mem_iff_getElem?.1 hr
  rw [h.numbered n r hn]
  exact (List.getElem?_eq_some_iff.1 hn).1

theorem Logged.eq_of_id (h : Logged log) {r r' : DriftAudit} (hr : r ∈ log) (hr' : r' ∈ log) (he : r.id = r'.id) :
    r = r' := by
  obtain ⟨n, hn⟩ := List.mem_iff_getElem?.1 hr
  obtain ⟨n', hn'⟩ := List.mem_iff_getElem?.1 hr'
  rw [h.numbered n r hn, h.numbered n' r' hn'] at he
  subst he
  rw [hn] at hn'
  exact Option.some.inj hn'

theorem Logged.nodup (h : Logged log) : log.Nodup := by
  rw [List.nodup_iff_getElem?_ne_getElem?]
  intro i j hij hj he
  obtain ⟨r, hr⟩ : ∃ r, log[j]? = some r := ⟨_, List.getElem?_eq_getElem hj⟩
  have hi := h.numbered i r (he.trans hr)
  have hj' := h.numbered j r hr
  omega

theorem Logged.add (h : Logged log) {action : DriftAction} {entity : DriftEntity} {changes : DriftChanges}
    (he : ∀ id, entity = .finding id → id < log.length) : Logged (log.add action entity changes) := by
  unfold DriftLog.add
  constructor
  · intro n r hn
    rw [List.getElem?_append] at hn
    split at hn
    · exact h.numbered n r hn
    · next hlt =>
      rcases hd : n - log.length with _ | m
      · rw [hd] at hn
        cases hn
        simp only
        omega
      · rw [hd] at hn
        cases hn
  · intro r hr id hid
    rw [List.length_append, List.length_singleton]
    rcases List.mem_append.1 hr with hr | hr
    · have := h.notes r hr id hid
      omega
    · rw [List.mem_singleton.1 hr] at hid
      have := he id hid
      omega

theorem mem_of_active {source : String} {f : DriftAudit} (h : log.active source = some f) :
    f ∈ log ∧ f.entity = .source source := by
  obtain ⟨hl, -⟩ := active_eq_some h
  obtain ⟨hm, hf⟩ := List.mem_filter.1 (List.mem_of_getLast? hl)
  exact ⟨hm, (of_decide_eq_true hf).1⟩

/-- A new finding is open. -/
theorem Logged.active_add (h : Logged log) {source : String} {action : DriftAction} {changes : DriftChanges}
    (ha : action = .transactionDrift ∨ action = .transactionFailed) :
    (log.add action (.source source) changes).active source = some ⟨log.length, action, .source source, changes⟩ := by
  rw [active, findings_add_finding ha, List.getLast?_concat, Option.filter_some, noted_add]
  have hfree : log.noted .driftResolved log.length = false := by
    rw [Bool.eq_false_iff]
    intro hn
    obtain ⟨r, hr, he⟩ := List.any_eq_true.1 hn
    have := h.notes r hr log.length (of_decide_eq_true he).2
    omega
  simp [hfree]

/-- An audit that is no finding of a source and resolves none of its own leaves its open finding. -/
theorem active_add_of_ne {action : DriftAction} {entity : DriftEntity} {changes : DriftChanges} {source : String}
    (hs : entity ≠ .source source)
    (hr : action = .driftResolved → ∀ f, log.active source = some f → entity ≠ .finding f.id) :
    (log.add action entity changes).active source = log.active source := by
  cases h : log.active source with
  | none => exact active_add_none (findings_add_of_ne (.inl hs)) h
  | some f =>
    obtain ⟨hl, hn⟩ := active_eq_some h
    have hne : ¬(action = .driftResolved ∧ entity = .finding f.id) := fun hh => hr hh.1 f h hh.2
    rw [active, findings_add_of_ne (.inl hs), hl, Option.filter_some, noted_add, hn]
    simp [hne]

/-- What `_source_drift` does to the open findings: the source's is what it was told, the others stay. -/
theorem Logged.sourceDrift (h : Logged log) (source : String) (changes : Option DriftChanges) {action : DriftAction}
    (ha : action = .transactionDrift ∨ action = .transactionFailed) :
    Logged (log.sourceDrift source changes action).1 ∧
      (log.sourceDrift source changes action).1.recorded source =
        (changes.elim 0 DriftChanges.difference) ∧
      ∀ other, other ≠ source → (log.sourceDrift source changes action).1.active other = log.active other := by
  have hresolve : ∀ f, log.active source = some f →
      Logged (log.add .driftResolved (.finding f.id) .empty) ∧
        ∀ other, other ≠ source → (log.add .driftResolved (.finding f.id) .empty).active other = log.active other := by
    intro f hf
    obtain ⟨hm, he⟩ := mem_of_active hf
    refine ⟨h.add fun id hid => by cases hid; exact h.id_lt hm, fun other hne => active_add_of_ne (by simp) ?_⟩
    intro _ g hg heq
    obtain ⟨hmg, heg⟩ := mem_of_active hg
    rw [h.eq_of_id hm hmg (DriftEntity.finding.inj heq), heg] at he
    exact hne (DriftEntity.source.inj he)
  have hfind : ∀ (l : DriftLog) (c : DriftChanges), Logged l → Logged (l.add action (.source source) c) ∧
      (l.add action (.source source) c).recorded source = c.difference ∧
        ∀ other, other ≠ source → (l.add action (.source source) c).active other = l.active other := by
    intro l c hl
    refine ⟨hl.add fun id hid => (by cases hid), ?_, fun other hne => active_add_of_ne (by simpa using hne.symm) ?_⟩
    · rw [recorded, hl.active_add ha]
    · rintro rfl
      simp at ha
  unfold DriftLog.sourceDrift
  split
  · next hf => exact ⟨h, by rw [recorded, hf]; rfl, fun _ _ => rfl⟩
  · next f hf =>
    refine ⟨(hresolve f hf).1, ?_, (hresolve f hf).2⟩
    rw [recorded, active_resolve hf]
    rfl
  · next c hf => exact hfind log c h
  · next c f hf =>
    split
    · next hsame =>
      refine ⟨h, ?_, fun _ _ => rfl⟩
      rw [recorded, hf, ← hsame.2]
      rfl
    · split
      · exact hfind log c h
      · obtain ⟨hl, hr, ho⟩ := hfind _ c (hresolve f hf).1
        exact ⟨hl, hr, fun other hne => (ho other hne).trans ((hresolve f hf).2 other hne)⟩

/-! ## What the open findings explain -/

theorem mem_activeFindings {r : DriftAudit} : r ∈ log.activeFindings ↔
    ∃ source, r.entity = .source source ∧ source ≠ "balance" ∧ log.active source = some r := by
  unfold activeFindings
  rw [List.mem_filter]
  constructor
  · rintro ⟨-, h⟩
    cases he : r.entity with
    | source source =>
      rw [he] at h
      exact ⟨source, rfl, of_decide_eq_true h⟩
    | finding id =>
      rw [he] at h
      cases h
  · rintro ⟨source, he, hne, ha⟩
    refine ⟨(mem_of_active ha).1, ?_⟩
    rw [he]
    exact decide_eq_true ⟨hne, ha⟩

/-- The sources with an open finding. -/
def openSources (log : DriftLog) : List String :=
  log.activeFindings.filterMap fun r => match r.entity with
    | .source source => some source
    | .finding _ => none

theorem mem_openSources {source : String} :
    source ∈ log.openSources ↔ source ≠ "balance" ∧ (log.active source).isSome = true := by
  unfold openSources
  rw [List.mem_filterMap]
  constructor
  · rintro ⟨r, hr, he⟩
    obtain ⟨s, hs, hne, ha⟩ := mem_activeFindings.1 hr
    rw [hs] at he
    cases he
    exact ⟨hne, by rw [ha]; rfl⟩
  · rintro ⟨hne, ha⟩
    obtain ⟨r, hr⟩ := Option.isSome_iff_exists.1 ha
    have he := (mem_of_active hr).2
    exact ⟨r, mem_activeFindings.2 ⟨source, he, hne, hr⟩, by rw [he]⟩

theorem Logged.nodup_openSources (h : Logged log) : log.openSources.Nodup := by
  have hn : log.activeFindings.Nodup := h.nodup.filter _
  refine List.pairwise_filterMap.2 (List.Pairwise.imp_of_mem ?_ hn)
  rintro r r' hr hr' hne s hs s' hs' rfl
  obtain ⟨t, ht, -, ha⟩ := mem_activeFindings.1 hr
  obtain ⟨t', ht', -, ha'⟩ := mem_activeFindings.1 hr'
  rw [ht] at hs
  rw [ht'] at hs'
  cases hs
  cases hs'
  exact hne (Option.some.inj (ha.symm.trans ha'))

theorem sum_recorded (log : DriftLog) (sources : List String) :
    (sources.map log.recorded).sum = ((sources.filterMap log.active).map fun r => r.changes.difference).sum := by
  induction sources with
  | nil => rfl
  | cons source sources ih =>
    rw [List.map_cons, List.sum_cons, ih, List.filterMap_cons]
    unfold recorded
    cases log.active source with
    | none => simp
    | some f => simp

/-- The open findings explain what they record, source by source. -/
theorem Logged.explained_eq (h : Logged log) {sources : List String} (hn : sources.Nodup)
    (hb : "balance" ∉ sources) (hall : ∀ source ∈ log.openSources, source ∈ sources) :
    log.explained = (sources.map log.recorded).sum := by
  have hperm : log.activeFindings.Perm (sources.filterMap log.active) := by
    have hnodup : log.activeFindings.Nodup := h.nodup.filter _
    refine (List.perm_ext_iff_of_nodup hnodup ?_).2 fun r => ?_
    · refine List.Nodup.filterMap ?_ hn
      intro s s' r hr hr'
      have he := (mem_of_active hr).2.symm.trans (mem_of_active hr').2
      exact DriftEntity.source.inj he
    · rw [mem_activeFindings, List.mem_filterMap]
      constructor
      · rintro ⟨source, -, hne, ha⟩
        exact ⟨source, hall source (mem_openSources.2 ⟨hne, by rw [ha]; rfl⟩), ha⟩
      · rintro ⟨source, hs, ha⟩
        exact ⟨source, (mem_of_active ha).2, fun he => hb (he ▸ hs), ha⟩
  rw [sum_recorded, ← (hperm.map _).sum_eq, explained]
  refine congrArg List.sum (List.map_congr_left fun r _ => ?_)
  cases r.changes <;> rfl

end DriftLog

/-! ## Runs over the sources -/

namespace SourceCheck

/-- What a check puts on record. -/
def Outcome.recorded (now before : Int) : Outcome → Int
  | .compared _ changes => changes.elim 0 DriftChanges.difference
  | .failed e transactions => failureLeft now e transactions before

/-- The changes of a source that was repaired are what it still lacks. -/
theorem changes_ok (c : SourceCheck) {legs : StripeLegs} {transactions : List StripeRow} {r : Repaired}
    (h : c.repair legs transactions = .ok r) : ∃ changes, c.changes legs transactions = .ok (r.legs, changes) ∧
      (changes = none ↔ r.matches transactions = true) ∧
      changes.elim 0 DriftChanges.difference = r.left transactions := by
  simp only [SourceCheck.changes, h, bind, Except.bind]
  cases hp : r.pendingRefund with
  | true =>
    simp only [if_true]
    exact ⟨none, rfl, by simp [Repaired.matches, hp], by simp [Repaired.left, hp]⟩
  | false =>
    simp only [Bool.false_eq_true, if_false]
    by_cases hm : r.refs ≠ [] ∧ r.legs.under r.refs = stripeNet transactions
    · rw [if_pos hm]
      refine ⟨none, rfl, by simp [Repaired.matches, hm], ?_⟩
      simp [Repaired.left, hp, hm.2]
    · rw [if_neg hm]
      refine ⟨some _, rfl, ?_, ?_⟩
      · simp only [Repaired.matches, hp, Bool.false_or, decide_eq_true_eq]
        exact ⟨fun h => (by cases h), fun h => absurd h hm⟩
      · simp [Repaired.left, hp, amounts, DriftChanges.difference]

theorem changes_error (c : SourceCheck) {legs : StripeLegs} {transactions : List StripeRow} {e : CheckError}
    (h : c.repair legs transactions = .error e) : c.changes legs transactions = .error e := by
  simp only [SourceCheck.changes, h, bind, Except.bind]

/-- What a check puts on record is what it found. -/
theorem outcome_difference (now : Int) (c : SourceCheck) (legs : StripeLegs) (before : Int) :
    c.difference now legs before = (c.outcome legs).recorded now before := by
  unfold difference outcome
  cases hr : c.repair legs c.transactions with
  | error e =>
    rw [changes_error c hr]
    rfl
  | ok r =>
    obtain ⟨changes, hc, hm, hd⟩ := changes_ok c hr
    rw [hc]
    cases changes with
    | none =>
      dsimp only
      rw [hm.1 rfl]
      exact hd.symm
    | some found =>
      have hn : r.matches c.transactions = false := by
        rw [Bool.eq_false_iff]
        intro hmatch
        cases hm.2 hmatch
      dsimp only
      rw [hn]
      by_cases hw : c.windowed = true ∧ (c.transactions.head?.bind (·.source)).isSome = true
      · rw [if_pos hw, hw.1, hw.2]
        simp only [Bool.and_self, Bool.not_true, Bool.or_self, Bool.false_eq_true, if_false]
        cases c.history with
        | error e => rfl
        | ok rows =>
          cases rows with
          | nil => exact hd.symm
          | cons row rows =>
            dsimp only
            cases hr' : c.repair r.legs (row :: rows) with
            | error e =>
              rw [changes_error c hr']
              rfl
            | ok r' =>
              obtain ⟨changes', hc', -, hd'⟩ := changes_ok c hr'
              rw [hc']
              exact hd'.symm
      · rw [if_neg hw]
        have hb : (c.windowed && (c.transactions.head?.bind (·.source)).isSome) = false := by
          rw [Bool.eq_false_iff]
          intro hb
          exact hw (Bool.and_eq_true_iff.1 hb)
        rw [hb]
        exact hd.symm

end SourceCheck

theorem logged_reconcileSource (now : Int) (c : SourceCheck) {log : DriftLog} (h : log.Logged) (legs : StripeLegs) :
    (reconcileSource now c log legs).1.Logged ∧
      (reconcileSource now c log legs).1.recorded c.source = c.difference now legs (log.recorded c.source) ∧
      ∀ other, other ≠ c.source → (reconcileSource now c log legs).1.active other = log.active other := by
  rw [c.outcome_difference]
  unfold reconcileSource
  cases c.outcome legs with
  | compared legs' changes => exact h.sourceDrift c.source changes (.inl (rfl : DriftAction.transactionDrift = _))
  | failed e transactions =>
    dsimp only [SourceCheck.Outcome.recorded, failureLeft]
    split
    · exact ⟨h, rfl, fun _ _ => rfl⟩
    · have ha : failureAction e = .transactionDrift ∨ failureAction e = .transactionFailed := by
        cases e
        · exact .inl rfl
        · exact .inr rfl
      obtain ⟨hl, hr, hother⟩ := h.sourceDrift c.source (some (SourceCheck.amounts c.source transactions 0)) ha
      refine ⟨hl, ?_, hother⟩
      rw [hr]
      simp [SourceCheck.amounts, DriftChanges.difference]

/-- Each source of a run ends with its difference on record, and the other sources keep theirs. -/
theorem logged_reconcileSources (now : Int) {cs : List SourceCheck} (hn : (cs.map (·.source)).Nodup) {log : DriftLog}
    (h : log.Logged) (legs : StripeLegs) :
    (reconcileSources now cs log legs).1.Logged ∧
      (cs.map fun c => (reconcileSources now cs log legs).1.recorded c.source) = differences now cs log legs ∧
      ∀ other, other ∉ cs.map (·.source) → (reconcileSources now cs log legs).1.active other = log.active other := by
  induction cs generalizing log legs with
  | nil => exact ⟨h, rfl, fun _ _ => rfl⟩
  | cons c cs ih =>
    obtain ⟨hc, hcs⟩ := List.nodup_cons.1 hn
    obtain ⟨hl₁, hr₁, ho₁⟩ := logged_reconcileSource now c h legs
    obtain ⟨hl₂, hr₂, ho₂⟩ := ih hcs hl₁ (reconcileSource now c log legs).2
    refine ⟨hl₂, ?_, fun other hne => ?_⟩
    · simp only [List.map_cons, reconcileSources, differences]
      refine congrArg₂ List.cons ?_ hr₂
      rw [← hr₁, DriftLog.recorded, ho₂ _ hc]
      rfl
    · rw [List.map_cons, List.mem_cons, not_or] at hne
      exact (ho₂ other hne.2).trans (ho₁ other hne.1)

/-- The transactions a source is compared on in the end: its history, when it is read. -/
def SourceCheck.whole (c : SourceCheck) : List StripeRow :=
  match c.history with
  | .ok (row :: rows) =>
    if c.windowed && (c.transactions.head?.bind (·.source)).isSome then row :: rows else c.transactions
  | _ => c.transactions

/-- A source whose legs are Stripe's net when its turn comes, and that comes to nothing where it cannot
be read. -/
structure SourceCheck.Balanced (c : SourceCheck) (legs : StripeLegs) : Prop where
  booked : c.whole = c.transactions → ∀ r, c.repair legs c.transactions = .ok r →
    r.legs.under r.refs = stripeNet c.transactions
  booked_whole : ∀ r r', c.repair legs c.transactions = .ok r → c.repair r.legs c.whole = .ok r' →
    r'.legs.under r'.refs = stripeNet c.whole
  repaired : ∀ e, c.repair legs c.transactions = .error e → stripeNet c.transactions = 0
  repaired_whole : ∀ r e, c.repair legs c.transactions = .ok r → c.repair r.legs c.whole = .error e →
    stripeNet c.whole = 0
  read : ∀ e, c.history = .error e → stripeNet c.transactions = 0

/-- All the sources of a run are, each at its turn. -/
def BalancedRun (now : Int) : List SourceCheck → DriftLog → StripeLegs → Prop
  | [], _, _ => True
  | c :: cs, log, legs => c.Balanced legs ∧
    BalancedRun now cs (reconcileSource now c log legs).1 (reconcileSource now c log legs).2

theorem Repaired.left_of_matches {r : Repaired} {transactions : List StripeRow} (h : r.matches transactions = true) :
    r.left transactions = 0 := by
  unfold Repaired.matches at h
  unfold Repaired.left
  rcases Bool.or_eq_true_iff.1 h with hp | hm
  · rw [if_pos hp]
  · have hm := (of_decide_eq_true hm).2
    split <;> omega

theorem failureLeft_zero (now : Int) (e : CheckError) {transactions : List StripeRow} (h : stripeNet transactions = 0) :
    failureLeft now e transactions 0 = 0 := by
  unfold failureLeft
  split
  · rfl
  · exact h

theorem Repaired.left_of_booked {r : Repaired} {transactions : List StripeRow}
    (h : r.legs.under r.refs = stripeNet transactions) : r.left transactions = 0 := by
  unfold Repaired.left
  split <;> omega

theorem SourceCheck.Balanced.difference {c : SourceCheck} {legs : StripeLegs} (h : c.Balanced legs) (now : Int) :
    c.difference now legs 0 = 0 := by
  unfold SourceCheck.difference
  cases hr : c.repair legs c.transactions with
  | error e => exact failureLeft_zero now e (h.repaired e hr)
  | ok r =>
    dsimp only
    cases hw : (c.windowed && (c.transactions.head?.bind (·.source)).isSome) with
    | false =>
      have hwhole : c.whole = c.transactions := by
        unfold SourceCheck.whole
        rw [hw]
        split <;> rfl
      simp only [Bool.not_false, Bool.or_true, if_true]
      exact Repaired.left_of_booked (h.booked hwhole r hr)
    | true =>
      split
      · next hm => exact Repaired.left_of_matches (by simpa using hm)
      · cases hh : c.history with
        | error e => exact failureLeft_zero now e (h.read e hh)
        | ok rows =>
          cases rows with
          | nil =>
            have hwhole : c.whole = c.transactions := by simp only [SourceCheck.whole, hh]
            exact Repaired.left_of_booked (h.booked hwhole r hr)
          | cons row rows =>
            have hwhole : c.whole = row :: rows := by simp only [SourceCheck.whole, hh, hw, if_true]
            dsimp only
            rw [← hwhole]
            cases hr' : c.repair r.legs c.whole with
            | error e => exact failureLeft_zero now e (h.repaired_whole r e hr hr')
            | ok r' => exact Repaired.left_of_booked (h.booked_whole r r' hr hr')

theorem differences_zero (now : Int) {cs : List SourceCheck} (hn : (cs.map (·.source)).Nodup) {log : DriftLog}
    {legs : StripeLegs} (hc : BalancedRun now cs log legs) (h : log.Logged)
    (hclear : ∀ c ∈ cs, log.recorded c.source = 0) : (differences now cs log legs).sum = 0 := by
  induction cs generalizing log legs with
  | nil => rfl
  | cons c cs ih =>
    obtain ⟨hfirst, hcs⟩ := List.nodup_cons.1 hn
    obtain ⟨hl, -, ho⟩ := logged_reconcileSource now c h legs
    have hrest : ∀ c' ∈ cs, (reconcileSource now c log legs).1.recorded c'.source = 0 := by
      intro c' hc'
      have hne : c'.source ≠ c.source := by
        intro he
        exact hfirst (List.mem_map.2 ⟨c', hc', he⟩)
      rw [DriftLog.recorded, ho _ hne]
      exact hclear c' (List.mem_cons_of_mem _ hc')
    rw [differences, List.sum_cons, hclear c List.mem_cons_self, hc.1.difference, ih hcs hc.2 hl hrest]
    rfl

/-- The sources with an open finding that a run does not check. -/
def uncheckedSources (cs : List SourceCheck) (log : DriftLog) : List String :=
  log.openSources.filter fun source => decide (source ∉ cs.map (·.source))

theorem residual_eq (now : Int) {cs : List SourceCheck} (hn : (cs.map (·.source)).Nodup)
    (hb : "balance" ∉ cs.map (·.source)) {log : DriftLog} (h : log.Logged) (legs : StripeLegs) (theirs pending : Int) :
    (reconcileSources now cs log legs).1.residual theirs (reconcileSources now cs log legs).2.total pending =
      theirs - (reconcileSources now cs log legs).2.total + pending - (differences now cs log legs).sum -
        ((uncheckedSources cs log).map log.recorded).sum := by
  obtain ⟨hl, hrec, hother⟩ := logged_reconcileSources now hn h legs
  have hout : ∀ source ∈ uncheckedSources cs log, source ∈ log.openSources ∧ source ∉ cs.map (·.source) := by
    intro source hs
    obtain ⟨ho, hc⟩ := List.mem_filter.1 hs
    exact ⟨ho, of_decide_eq_true hc⟩
  have hnodup : (cs.map (·.source) ++ uncheckedSources cs log).Nodup := by
    refine List.nodup_append.2 ⟨hn, h.nodup_openSources.filter _, ?_⟩
    rintro source hs other ho rfl
    exact (hout _ ho).2 hs
  have hbal : "balance" ∉ cs.map (·.source) ++ uncheckedSources cs log := by
    intro hm
    rcases List.mem_append.1 hm with hm | hm
    · exact hb hm
    · exact (DriftLog.mem_openSources.1 (hout _ hm).1).1 rfl
  have hall : ∀ source ∈ (reconcileSources now cs log legs).1.openSources,
      source ∈ cs.map (·.source) ++ uncheckedSources cs log := by
    intro source hs
    obtain ⟨hne, ha⟩ := DriftLog.mem_openSources.1 hs
    by_cases hc : source ∈ cs.map (·.source)
    · exact List.mem_append_left _ hc
    · rw [hother source hc] at ha
      exact List.mem_append_right _ (List.mem_filter.2 ⟨DriftLog.mem_openSources.2 ⟨hne, ha⟩, decide_eq_true hc⟩)
  have hrest : (uncheckedSources cs log).map (reconcileSources now cs log legs).1.recorded =
      (uncheckedSources cs log).map log.recorded := by
    refine List.map_congr_left fun source hs => ?_
    rw [DriftLog.recorded, hother source (hout _ hs).2]
    rfl
  have hexpl := hl.explained_eq hnodup hbal hall
  have hchecked : ((cs.map (·.source)).map (reconcileSources now cs log legs).1.recorded).sum =
      (differences now cs log legs).sum := by
    rw [← hrec, List.map_map]
    rfl
  rw [List.map_append, List.sum_append, hrest, hchecked] at hexpl
  rw [DriftLog.residual, hexpl]
  omega

/-- The residual is what the balances differ by, less what the check of each source found and what the
findings of the others record; it is nothing when all of these are. -/
theorem reconciled_residual (now : Int) {cs : List SourceCheck} (hn : (cs.map (·.source)).Nodup)
    (hb : "balance" ∉ cs.map (·.source)) {log : DriftLog} (h : log.Logged) (legs : StripeLegs) (theirs pending : Int) :
    (reconcileSources now cs log legs).1.residual theirs (reconcileSources now cs log legs).2.total pending =
      theirs - (reconcileSources now cs log legs).2.total + pending - (differences now cs log legs).sum -
        ((uncheckedSources cs log).map log.recorded).sum ∧
    (BalancedRun now cs log legs → log.openSources = [] → theirs = (reconcileSources now cs log legs).2.total →
      pending = 0 →
      (reconcileSources now cs log legs).1.residual theirs (reconcileSources now cs log legs).2.total pending = 0) := by
  have heq := residual_eq now hn hb h legs theirs pending
  refine ⟨heq, fun hc hopen htheirs hpending => ?_⟩
  have hclear : ∀ c ∈ cs, log.recorded c.source = 0 := by
    intro c hm
    have hne : c.source ≠ "balance" := by
      intro he
      rw [← he] at hb
      exact hb (List.mem_map_of_mem hm)
    cases ha : log.active c.source with
    | none => rw [DriftLog.recorded, ha]
    | some f =>
      have hmem := DriftLog.mem_openSources.2 ⟨hne, by rw [ha]; rfl⟩
      rw [hopen] at hmem
      cases hmem
  have hdiff := differences_zero now hn hc h hclear
  have hnone : uncheckedSources cs log = [] := by rw [uncheckedSources, hopen]; rfl
  rw [hnone] at heq
  simp only [List.map_nil, List.sum_nil] at heq
  omega

/-! ## A source that is booked and cannot be read -/

def chargeRow : StripeRow := ⟨"txn_1", some "ch_1", some 100, "cad", some 0⟩

/-- A charge whose repair comes to what the handlers answer. -/
def chargeCheck (answer : Except CheckError (List String)) : SourceCheck where
  source := "ch_1"
  transactions := [chargeRow]
  windowed := false
  refs := ["payment:pay_1"]
  repair := fun legs _ => answer.map fun refs => ⟨legs, refs, false⟩
  history := .ok []

theorem nothing_logged : DriftLog.Logged [] := by
  constructor
  · intro n r h
    cases h
  · intro r h
    cases h

/-- A refund of 0.40 that was not booked yet. -/
def refundCheck : SourceCheck where
  source := "re_1"
  transactions := [⟨"txn_2", some "re_1", some (-40), "cad", some 0⟩]
  windowed := false
  refs := ["refund:re_1"]
  repair := fun legs _ => .ok ⟨legs.insert ("refund:re_1", -40), ["refund:re_1"], false⟩
  history := .ok []

/-- A source that can be read, and is repaired both times. -/
theorem SourceCheck.Balanced.of_repaired {c : SourceCheck} {legs : StripeLegs} {r r' : Repaired}
    (h : c.repair legs c.transactions = .ok r) (hbooked : r.legs.under r.refs = stripeNet c.transactions)
    (h' : c.repair r.legs c.whole = .ok r') (hbooked' : r'.legs.under r'.refs = stripeNet c.whole)
    (hread : ∀ e, c.history ≠ .error e) : c.Balanced legs := by
  constructor
  · intro _ q hq
    cases h.symm.trans hq
    exact hbooked
  · intro q q' hq hq'
    cases h.symm.trans hq
    cases h'.symm.trans hq'
    exact hbooked'
  · intro e he
    cases h.symm.trans he
  · intro q e hq he
    cases h.symm.trans hq
    cases h'.symm.trans he
  · intro e he
    exact absurd he (hread e)

/-- A charge of 1.00 that is booked and one refund of it that the run books leave no residual. -/
theorem booked_charge_explained :
    (reconcileSources 0 [chargeCheck (.ok ["payment:pay_1"]), refundCheck] [] [("payment:pay_1", 100)]).1.residual 60
      (reconcileSources 0 [chargeCheck (.ok ["payment:pay_1"]), refundCheck] [] [("payment:pay_1", 100)]).2.total 0 = 0 := by
  have hlegs : (reconcileSource 0 (chargeCheck (.ok ["payment:pay_1"])) [] [("payment:pay_1", 100)]).2 =
      [("payment:pay_1", 100)] := by decide
  refine (reconciled_residual 0 (by decide) (by decide) nothing_logged _ 60 0).2 ⟨?_, ?_, trivial⟩ rfl (by decide) rfl
  · exact .of_repaired rfl (by decide) rfl (by decide) fun e he => by cases he
  · rw [hlegs]
    exact .of_repaired rfl (by decide) rfl (by decide) fun e he => by cases he

/-- What Stripe's balance and the ledger's differ by apart from some sources, whole. -/
def unattributed (theirs : Int) (cs : List SourceCheck) (legs : StripeLegs) : Int :=
  theirs - (cs.map fun c => stripeNet c.transactions).sum -
    (legs.total - (cs.map fun c => legs.under c.refs).sum)

/-- The same charge, when its repair raises: the finding has no ledger amount, so it takes 1.00 off a
balance that is right. -/
theorem unreadable_charge_unexplained :
    let run := reconcileSources 0 [chargeCheck (.error .raised)] [] [("payment:pay_1", 100)]
    stripeNet [chargeRow] = run.2.under ["payment:pay_1"] ∧
      unattributed 100 [chargeCheck (.error .raised)] run.2 = 0 ∧
      run.1.residual 100 run.2.total 0 = -100 := by
  decide

end ClientBridge
