import ClientBridge.Library.Runs

/-!
# Drift of the Stripe balance

A business's reconciliation ends by comparing its Stripe balance with its books
(`_reconcile_balance`).  A residual is first noted as unsettled, and becomes a finding when a
later check sees it again; a check without a residual resolves the finding.  The residual noted
last is read from the audits, which a check without a residual does not write.
-/

namespace ClientBridge

open Runs

inductive DriftAction where
  | transactionDrift | transactionFailed | driftResolved | driftAcknowledged | balanceUnsettled
  deriving DecidableEq, Repr

/-- What an audit is about: a Stripe source, or a finding among the audits. -/
inductive DriftEntity where
  | source (source : String)
  | finding (id : Nat)
  deriving DecidableEq, Repr

inductive DriftChanges where
  | empty
  | residual (cents : Int)
  | amounts (source : String) (transactionIds : List String) (ledgerCents stripeCents : Int)
  deriving DecidableEq, Repr

/-- A row of `audits`; ids grow, so the rows stand in their order. -/
structure DriftAudit where
  id : Nat
  action : DriftAction
  entity : DriftEntity
  changes : DriftChanges
  deriving DecidableEq, Repr

def DriftAudit.isFinding (r : DriftAudit) (source : String) : Bool :=
  decide (r.entity = .source source ∧ (r.action = .transactionDrift ∨ r.action = .transactionFailed))

/-- The audits of one business. -/
abbrev DriftLog := List DriftAudit

namespace DriftLog

def add (log : DriftLog) (action : DriftAction) (entity : DriftEntity) (changes : DriftChanges) : DriftLog :=
  log ++ [⟨log.length, action, entity, changes⟩]

/-- The findings about a source (`source_findings`). -/
def findings (log : DriftLog) (source : String) : List DriftAudit := log.filter (·.isFinding source)

/-- Whether a finding has a note of this kind (`_finding_notes`). -/
def noted (log : DriftLog) (action : DriftAction) (id : Nat) : Bool :=
  log.any fun r => decide (r.action = action ∧ r.entity = .finding id)

/-- A source's latest finding, if it is not resolved. -/
def active (log : DriftLog) (source : String) : Option DriftAudit :=
  (log.findings source).getLast?.filter fun f => !log.noted .driftResolved f.id

/-- `_source_drift`: the audits after it, and how many findings wait to be acknowledged. -/
def sourceDrift (log : DriftLog) (source : String) (changes : Option DriftChanges) (action : DriftAction) :
    DriftLog × Int :=
  match changes, log.active source with
  | none, none => (log, 0)
  | none, some f => (log.add .driftResolved (.finding f.id) .empty, 0)
  | some c, none => (log.add action (.source source) c, 1)
  | some c, some f =>
    if f.action = action ∧ f.changes = c then (log, if log.noted .driftAcknowledged f.id then 0 else 1)
    else if f.action = action then (log.add action (.source source) c, 1)
    else ((log.add .driftResolved (.finding f.id) .empty).add action (.source source) c, 1)

/-- The latest findings that are not resolved, of all sources but the balance (`_active_findings`). -/
def activeFindings (log : DriftLog) : List DriftAudit :=
  log.filter fun r => match r.entity with
    | .source source => decide (source ≠ "balance" ∧ log.active source = some r)
    | .finding _ => false

def explained (log : DriftLog) : Int :=
  (log.activeFindings.map fun r => match r.changes with
    | .amounts _ _ ledger stripe => stripe - ledger
    | _ => 0).sum

/-- The residual the previous check noted (`_last_unsettled`). -/
def lastUnsettled (log : DriftLog) : Option Int :=
  match (log.filter fun r => decide (r.action = .balanceUnsettled)).getLast? with
  | some ⟨_, _, _, .residual cents⟩ => some cents
  | _ => none

def residual (log : DriftLog) (theirs ours pending : Int) : Int := theirs - ours - log.explained + pending

/-- `_reconcile_balance`, with the balance at Stripe, the one in the books and the refunds that are pending. -/
def reconcileBalance (log : DriftLog) (theirs ours pending : Int) : DriftLog × Int :=
  let residual := log.residual theirs ours pending
  if residual ≠ 0 ∧ log.lastUnsettled ≠ some residual then
    (log.add .balanceUnsettled (.source "balance") (.residual residual), 0)
  else log.sourceDrift "balance" (if residual ≠ 0 then some (.residual residual) else none) .transactionDrift

end DriftLog

/-- What writes audits here: a balance check, by its residual, the check of another source's
transactions, and a person who acknowledges a finding. -/
inductive DriftEvent where
  | balance (residual : Int)
  | source (source : String)
  | acknowledge (finding : Nat)
  deriving DecidableEq, Repr

inductive DriftStep (log : DriftLog) : DriftEvent → DriftLog → Prop
  | balance (theirs ours pending : Int) :
      DriftStep log (.balance (log.residual theirs ours pending)) (log.reconcileBalance theirs ours pending).1
  | source (source : String) (h : source ≠ "balance") (changes : Option DriftChanges) {action : DriftAction}
      (ha : action = .transactionDrift ∨ action = .transactionFailed) :
      DriftStep log (.source source) (log.sourceDrift source changes action).1
  | acknowledge {source : String} {f : DriftAudit} (h : log.active source = some f)
      (hn : log.noted .driftAcknowledged f.id = false) :
      DriftStep log (.acknowledge f.id) (log.add .driftAcknowledged (.finding f.id) .empty)

/-- The residuals of the balance checks. -/
def residuals (es : List DriftEvent) : List Int :=
  es.filterMap fun e => match e with
    | .balance q => some q
    | _ => none

/-! ## Reading the audits -/

namespace DriftLog

variable {log : DriftLog}

theorem findings_add (log : DriftLog) (action : DriftAction) (entity : DriftEntity) (changes : DriftChanges)
    (source : String) : (log.add action entity changes).findings source = log.findings source ++
      (if (⟨log.length, action, entity, changes⟩ : DriftAudit).isFinding source then
        [⟨log.length, action, entity, changes⟩] else []) := by
  unfold findings add
  rw [List.filter_append, List.filter_singleton]
  cases (⟨log.length, action, entity, changes⟩ : DriftAudit).isFinding source <;> rfl

/-- Only findings of a source are found there. -/
theorem findings_add_of_ne {action : DriftAction} {entity : DriftEntity} {changes : DriftChanges} {source : String}
    (h : entity ≠ .source source ∨ (action ≠ .transactionDrift ∧ action ≠ .transactionFailed)) :
    (log.add action entity changes).findings source = log.findings source := by
  have hf : (⟨log.length, action, entity, changes⟩ : DriftAudit).isFinding source = false := by
    simp only [DriftAudit.isFinding, decide_eq_false_iff_not, not_and, not_or]
    intro he
    obtain h | h := h
    · exact absurd he h
    · exact h
  rw [findings_add, hf, if_neg Bool.false_ne_true, List.append_nil]

theorem findings_add_finding {action : DriftAction} {changes : DriftChanges} {source : String}
    (ha : action = .transactionDrift ∨ action = .transactionFailed) :
    (log.add action (.source source) changes).findings source =
      log.findings source ++ [⟨log.length, action, .source source, changes⟩] := by
  rw [findings_add, if_pos (by simp [DriftAudit.isFinding, ha])]

theorem noted_add (log : DriftLog) (action a : DriftAction) (entity : DriftEntity) (changes : DriftChanges) (id : Nat) :
    (log.add action entity changes).noted a id = (log.noted a id || decide (action = a ∧ entity = .finding id)) := by
  simp [noted, add]

/-- A resolved finding stays resolved until the next one. -/
theorem active_add_none {action : DriftAction} {entity : DriftEntity} {changes : DriftChanges} {source : String}
    (hf : (log.add action entity changes).findings source = log.findings source) (h : log.active source = none) :
    (log.add action entity changes).active source = none := by
  simp only [active, hf, Option.filter_eq_none_iff, noted_add] at h ⊢
  intro f hl
  have := h f hl
  simp_all

theorem active_eq_some {source : String} {f : DriftAudit} (h : log.active source = some f) :
    (log.findings source).getLast? = some f ∧ log.noted .driftResolved f.id = false := by
  simpa [active, Option.filter_eq_some_iff] using h

theorem active_resolve {source : String} {f : DriftAudit} (h : log.active source = some f) (changes : DriftChanges) :
    (log.add .driftResolved (.finding f.id) changes).active source = none := by
  obtain ⟨hl, -⟩ := active_eq_some h
  rw [active, findings_add_of_ne (.inl (by simp)), hl]
  simp [noted_add]

theorem lastUnsettled_add_of_ne {action : DriftAction} {entity : DriftEntity} {changes : DriftChanges}
    (h : action ≠ .balanceUnsettled) : (log.add action entity changes).lastUnsettled = log.lastUnsettled := by
  have : (log.add action entity changes).filter (fun r => decide (r.action = .balanceUnsettled)) =
      log.filter fun r => decide (r.action = .balanceUnsettled) := by
    rw [add, List.filter_append, List.filter_singleton]
    simp [h]
  simp only [lastUnsettled, this]

theorem lastUnsettled_add {entity : DriftEntity} (log : DriftLog) (residual : Int) :
    (log.add .balanceUnsettled entity (.residual residual)).lastUnsettled = some residual := by
  simp [lastUnsettled, add]

/-! ## `_source_drift` -/

/-- What `_source_drift` writes: a resolution of the active finding, or a finding, or both. -/
theorem sourceDrift_cases (log : DriftLog) (source : String) (changes : Option DriftChanges) (action : DriftAction) :
    (log.sourceDrift source changes action).1 = log ∨
    (∃ f, log.active source = some f ∧
      (log.sourceDrift source changes action).1 = log.add .driftResolved (.finding f.id) .empty) ∨
    (∃ c, changes = some c ∧ (log.sourceDrift source changes action).1 = log.add action (.source source) c) ∨
    (∃ f c, log.active source = some f ∧ changes = some c ∧ (log.sourceDrift source changes action).1 =
      (log.add .driftResolved (.finding f.id) .empty).add action (.source source) c) := by
  unfold sourceDrift
  split
  · exact .inl rfl
  · next f hf => exact .inr (.inl ⟨f, hf, rfl⟩)
  · next c hf => exact .inr (.inr (.inl ⟨c, rfl, rfl⟩))
  · next c f hf =>
    split
    · exact .inl rfl
    · split
      · exact .inr (.inr (.inl ⟨c, rfl, rfl⟩))
      · exact .inr (.inr (.inr ⟨f, c, hf, rfl, rfl⟩))

theorem sourceDrift_lastUnsettled {source : String} {changes : Option DriftChanges} {action : DriftAction}
    (ha : action = .transactionDrift ∨ action = .transactionFailed) :
    (log.sourceDrift source changes action).1.lastUnsettled = log.lastUnsettled := by
  have hne : action ≠ .balanceUnsettled := by obtain rfl | rfl := ha <;> simp
  obtain h | ⟨f, -, h⟩ | ⟨c, -, h⟩ | ⟨f, c, -, -, h⟩ := log.sourceDrift_cases source changes action
  · rw [h]
  · rw [h, lastUnsettled_add_of_ne (by simp)]
  · rw [h, lastUnsettled_add_of_ne hne]
  · rw [h, lastUnsettled_add_of_ne hne, lastUnsettled_add_of_ne (by simp)]

/-- Another source's check leaves a source without an active finding without one. -/
theorem sourceDrift_others {source other : String} (hne : source ≠ other) {changes : Option DriftChanges}
    {action : DriftAction} (h : log.active other = none) :
    (log.sourceDrift source changes action).1.active other = none := by
  have hs : ∀ (l : DriftLog) (a : DriftAction) (c : DriftChanges), l.active other = none →
      (l.add a (.source source) c).active other = none := fun l a c hl =>
    active_add_none (findings_add_of_ne (.inl (by simpa using hne))) hl
  have hr : ∀ id, (log.add .driftResolved (.finding id) .empty).active other = none := fun id =>
    active_add_none (findings_add_of_ne (.inl (by simp))) h
  obtain h' | ⟨f, -, h'⟩ | ⟨c, -, h'⟩ | ⟨f, c, -, -, h'⟩ := log.sourceDrift_cases source changes action
  · rw [h', h]
  · rw [h', hr]
  · rw [h', hs _ _ _ h]
  · rw [h', hs _ _ _ (hr f.id)]

/-- Without changes the active finding is resolved, and none is found. -/
theorem sourceDrift_none (log : DriftLog) (source : String) (action : DriftAction) :
    (log.sourceDrift source none action).1.active source = none ∧
      (log.sourceDrift source none action).1.findings source = log.findings source := by
  unfold sourceDrift
  cases hf : log.active source with
  | none => exact ⟨hf, rfl⟩
  | some f => exact ⟨active_resolve hf _, findings_add_of_ne (.inl (by simp))⟩

/-- With none active, changes are a finding. -/
theorem sourceDrift_finds {source : String} (h : log.active source = none) (c : DriftChanges) {action : DriftAction}
    (ha : action = .transactionDrift ∨ action = .transactionFailed) :
    (log.sourceDrift source (some c) action).1.findings source ≠ log.findings source := by
  have : (log.sourceDrift source (some c) action).1 = log.add action (.source source) c := by
    simp only [sourceDrift, h]
  rw [this, findings_add_finding ha]
  simp

/-- A balance check clears the balance, looks at a residual it saw before, or notes one. -/
theorem reconcileBalance_cases (log : DriftLog) (theirs ours pending : Int) :
    (log.residual theirs ours pending = 0 ∧ (log.reconcileBalance theirs ours pending).1 =
      (log.sourceDrift "balance" none .transactionDrift).1) ∨
    (log.residual theirs ours pending ≠ 0 ∧ log.lastUnsettled = some (log.residual theirs ours pending) ∧
      (log.reconcileBalance theirs ours pending).1 = (log.sourceDrift "balance"
        (some (.residual (log.residual theirs ours pending))) .transactionDrift).1) ∨
    (log.residual theirs ours pending ≠ 0 ∧ log.lastUnsettled ≠ some (log.residual theirs ours pending) ∧
      (log.reconcileBalance theirs ours pending).1 =
        log.add .balanceUnsettled (.source "balance") (.residual (log.residual theirs ours pending))) := by
  unfold reconcileBalance
  by_cases hq : log.residual theirs ours pending = 0
  · exact .inl ⟨hq, by simp [hq]⟩
  · by_cases hl : log.lastUnsettled = some (log.residual theirs ours pending)
    · exact .inr (.inl ⟨hq, hl, by simp [hq, hl]⟩)
    · exact .inr (.inr ⟨hq, hl, by simp [hq, hl]⟩)

end DriftLog

theorem DriftStep.balance_cases {log log' : DriftLog} {q : Int} (h : DriftStep log (.balance q) log') :
    (q = 0 ∧ log' = (log.sourceDrift "balance" none .transactionDrift).1) ∨
    (q ≠ 0 ∧ log.lastUnsettled = some q ∧
      log' = (log.sourceDrift "balance" (some (.residual q)) .transactionDrift).1) ∨
    (q ≠ 0 ∧ log.lastUnsettled ≠ some q ∧ log' = log.add .balanceUnsettled (.source "balance") (.residual q)) := by
  cases h with
  | balance theirs ours pending => exact log.reconcileBalance_cases theirs ours pending

/-! ## Runs -/

theorem residuals_append (es es' : List DriftEvent) : residuals (es ++ es') = residuals es ++ residuals es' :=
  List.filterMap_append

/-- What the audits tell of the residuals so far. -/
structure DriftSeen (es : List DriftEvent) (log : DriftLog) : Prop where
  unsettled : log.lastUnsettled = ((residuals es).filter (· ≠ 0)).getLast?
  cleared : (residuals es).getLast? = some 0 → log.active "balance" = none

theorem DriftSeen.balance {es : List DriftEvent} {log log' : DriftLog} (h : DriftSeen es log) {q : Int}
    (hs : DriftStep log (.balance q) log') : DriftSeen (es ++ [.balance q]) log' := by
  have hres : residuals (es ++ [.balance q]) = residuals es ++ [q] := residuals_append es [.balance q]
  have hlast : q ≠ 0 → ((residuals es ++ [q]).filter (· ≠ 0)).getLast? = some q := by
    intro hq
    rw [List.filter_append, List.filter_singleton]
    simp [hq]
  obtain ⟨rfl, rfl⟩ | ⟨hq, hl, rfl⟩ | ⟨hq, -, rfl⟩ := hs.balance_cases
  · constructor
    · rw [hres, DriftLog.sourceDrift_lastUnsettled (.inl rfl), h.unsettled, List.filter_append]
      simp
    · exact fun _ => (log.sourceDrift_none "balance" .transactionDrift).1
  · constructor
    · rw [hres, hlast hq, DriftLog.sourceDrift_lastUnsettled (.inl rfl), hl]
    · rw [hres, List.getLast?_concat]
      intro h0
      exact absurd (Option.some.inj h0) hq
  · constructor
    · rw [hres, hlast hq, DriftLog.lastUnsettled_add]
    · rw [hres, List.getLast?_concat]
      intro h0
      exact absurd (Option.some.inj h0) hq

theorem DriftSeen.step {es : List DriftEvent} {log log' : DriftLog} (h : DriftSeen es log) {e : DriftEvent}
    (hs : DriftStep log e log') : DriftSeen (es ++ [e]) log' := by
  cases e with
  | balance q => exact h.balance hs
  | source source =>
    have hres : residuals (es ++ [.source source]) = residuals es := by rw [residuals_append]; simp [residuals]
    cases hs with
    | source _ hne changes ha =>
      constructor
      · rw [hres, DriftLog.sourceDrift_lastUnsettled ha, h.unsettled]
      · rw [hres]
        exact fun h0 => DriftLog.sourceDrift_others hne (h.cleared h0)
  | acknowledge id =>
    have hres : residuals (es ++ [.acknowledge id]) = residuals es := by rw [residuals_append]; simp [residuals]
    cases hs with
    | acknowledge hf hn =>
      constructor
      · rw [hres, DriftLog.lastUnsettled_add_of_ne (by simp), h.unsettled]
      · rw [hres]
        exact fun h0 => DriftLog.active_add_none (DriftLog.findings_add_of_ne (.inl (by simp))) (h.cleared h0)

theorem driftSeen_run {es : List DriftEvent} {log : DriftLog} (hr : Run DriftStep [] es log) : DriftSeen es log := by
  induction hr with
  | nil => exact ⟨rfl, fun h => by cases h⟩
  | snoc _ hs ih => exact ih.step hs

/-! ## Two sightings -/

/-- What a balance check does with a residual, after the previous check's. -/
structure TwoSightings (previous : Option Int) (q : Int) (log log' : DriftLog) : Prop where
  finding : log'.findings "balance" ≠ log.findings "balance" → q ≠ 0 ∧ previous = some q
  cleared : q = 0 → log'.active "balance" = none

/-- Every balance check of these events. -/
def DriftConfirmed (es : List DriftEvent) : Prop :=
  ∀ pre q post log log', es = pre ++ .balance q :: post → Run DriftStep [] pre log →
    DriftStep log (.balance q) log' → TwoSightings (residuals pre).getLast? q log log'

/-- A residual is the same again after one or more checks without any. -/
def ComesBack (qs : List Int) : Prop :=
  ∃ pre q n post, q ≠ 0 ∧ qs = pre ++ q :: (List.replicate (n + 1) 0 ++ q :: post)

theorem eq_of_last_nonzero {qs : List Int} {q : Int} (h : (qs.filter (· ≠ 0)).getLast? = some q) :
    ∃ pre n, qs = pre ++ q :: List.replicate n 0 := by
  induction qs using List.reverseRecOn with
  | nil => cases h
  | append_singleton qs r ih =>
    rw [List.filter_append, List.filter_singleton] at h
    by_cases hr : r = 0
    · subst hr
      obtain ⟨pre, n, rfl⟩ := ih (by simpa using h)
      refine ⟨pre, n + 1, ?_⟩
      rw [List.replicate_succ', List.append_assoc, List.cons_append]
    · have : r = q := by simpa [hr] using h
      subst this
      exact ⟨qs, 0, rfl⟩

/-- The check at which a residual of a run was seen. -/
theorem balance_of_residuals {es : List DriftEvent} {pre post : List Int} {q : Int}
    (h : residuals es = pre ++ q :: post) : ∃ pre' post', es = pre' ++ .balance q :: post' ∧ residuals pre' = pre := by
  obtain ⟨es₁, es₂, rfl, h₁, h₂⟩ := List.filterMap_eq_append_iff.1 h
  obtain ⟨es₃, e, es₄, rfl, h₃, he, -⟩ := List.filterMap_eq_cons_iff.1 h₂
  have hq : e = .balance q := by
    cases e with
    | balance r => simpa using he
    | source _ => simp at he
    | acknowledge _ => simp at he
  subst hq
  refine ⟨es₁ ++ es₃, es₄, (List.append_assoc ..).symm, ?_⟩
  have h₄ : residuals es₃ = [] := List.filterMap_eq_nil_iff.2 h₃
  have h₁' : residuals es₁ = pre := h₁
  rw [residuals_append, h₁', h₄, List.append_nil]

theorem not_comesBack_of_confirmed {es : List DriftEvent} {log : DriftLog} (hr : Run DriftStep [] es log)
    (h : DriftConfirmed es) : ¬ComesBack (residuals es) := by
  rintro ⟨pre, q, n, post, hq, hqs⟩
  have hqs' : residuals es = (pre ++ q :: List.replicate (n + 1) 0) ++ q :: post := by simp [hqs]
  obtain ⟨pre', post', rfl, hpre⟩ := balance_of_residuals hqs'
  obtain ⟨log₀, hr₀, hr₁⟩ := hr.split
  obtain ⟨log₁, hs⟩ := hr₁.head
  have hseen := driftSeen_run hr₀
  have hlast : (residuals pre').getLast? = some 0 := by
    rw [hpre, List.replicate_succ', ← List.cons_append, ← List.append_assoc, List.getLast?_concat]
  have hun : log₀.lastUnsettled = some q := by
    rw [hseen.unsettled, hpre]
    simp [List.filter_append, hq]
  -- the zero cleared the finding, but the residual is still the one noted last
  have hnone := hseen.cleared hlast
  obtain ⟨h0, -⟩ | ⟨-, -, rfl⟩ | ⟨-, hl, -⟩ := hs.balance_cases
  · exact hq h0
  · have := (h _ _ _ _ _ rfl hr₀ hs).finding (DriftLog.sourceDrift_finds hnone _ (.inl rfl))
    rw [hlast] at this
    exact hq (Option.some.inj this.2).symm
  · exact hl hun

theorem confirmed_of_not_comesBack {es : List DriftEvent} (h : ¬ComesBack (residuals es)) : DriftConfirmed es := by
  rintro pre q post log log' rfl hr hs
  have hseen := driftSeen_run hr
  obtain ⟨rfl, rfl⟩ | ⟨hq, hl, rfl⟩ | ⟨hq, -, rfl⟩ := hs.balance_cases
  · obtain ⟨hnone, hsame⟩ := log.sourceDrift_none "balance" .transactionDrift
    exact ⟨fun hf => absurd hsame hf, fun _ => hnone⟩
  · refine ⟨fun _ => ⟨hq, ?_⟩, fun h0 => absurd h0 hq⟩
    obtain ⟨qs, n, hqs⟩ := eq_of_last_nonzero (hseen.unsettled ▸ hl)
    cases n with
    | zero => rw [hqs, List.replicate_zero, List.getLast?_concat]
    | succ n =>
      refine absurd ⟨qs, q, n, residuals post, hq, ?_⟩ h
      have hcons : residuals (.balance q :: post) = q :: residuals post := rfl
      rw [residuals_append, hcons, hqs, List.append_assoc, List.cons_append]
  · exact ⟨fun hf => absurd (DriftLog.findings_add_of_ne (.inr (by simp))) hf, fun h0 => absurd h0 hq⟩

/-- A check can see any residual. -/
theorem exists_check (log : DriftLog) (q : Int) : ∃ log', DriftStep log (.balance q) log' := by
  have hq : log.residual (q + log.explained) 0 0 = q := by
    unfold DriftLog.residual
    omega
  exact ⟨_, hq ▸ DriftStep.balance (q + log.explained) 0 0⟩

theorem exists_checks (qs : List Int) : ∃ log, Run DriftStep [] (qs.map .balance) log := by
  induction qs using List.reverseRecOn with
  | nil => exact ⟨[], .nil⟩
  | append_singleton qs q ih =>
    obtain ⟨log, hr⟩ := ih
    obtain ⟨log', hs⟩ := exists_check log q
    refine ⟨log', ?_⟩
    rw [List.map_append]
    exact .snoc hr hs

/-- Findings of the balance are of residuals seen twice in a row, unless one comes back. -/
theorem balance_drift_seen_twice_iff {es : List DriftEvent} {log : DriftLog} (hr : Run DriftStep [] es log) :
    DriftConfirmed es ↔ ¬ComesBack (residuals es) :=
  ⟨not_comesBack_of_confirmed hr, confirmed_of_not_comesBack⟩

theorem fiveTwice_confirmed : DriftConfirmed [.balance 5, .balance 5] := by
  obtain ⟨log, hr⟩ := exists_checks [5, 5]
  refine (balance_drift_seen_twice_iff hr).2 ?_
  rintro ⟨pre, q, n, post, -, h⟩
  have := congrArg List.length h
  simp [residuals] at this
  omega

/-- A residual, none, and the same residual again: the third check finds it. -/
theorem five_comes_back : ¬∀ es log, Run DriftStep [] es log → DriftConfirmed es := by
  intro h
  obtain ⟨log, hr⟩ := exists_checks [5, 0, 5]
  refine not_comesBack_of_confirmed hr (h _ _ hr) ⟨[], 5, 0, [], by decide, rfl⟩

end ClientBridge
