import ClientBridge.Earnings.Clawbacks
import ClientBridge.Ledger.Refunds

/-!
# What the stage journals of an earning keep

An earning's status is read back from its stage journals, which are numbered by counting the
earlier ones.  They follow one pattern, move, undo, move, undo and so on (`history`), and
`Stages` says what they leave on the accounts after so many of each.  `EarningsKept` holds it
of every earning of a ledger; moves (`EarningsKept.moveMany_ok`) and reversals keep it, and an
undo always finds exactly one journal to undo (`EarningsKept.moveEarning_eq`).
-/

namespace ClientBridge

open Bookkeeping Runs

/-! ## The journals of a stage -/

/-- The reference of the `m`-th journal of a stage: it moves the earning, or undoes the last one. -/
def stageEntry (stage : Stage) (n m : Nat) : Ref :=
  if m % 2 = 0 then .stage stage n (m / 2) else .undo (.stage stage n (m / 2))

def history (stage : Stage) (n m : Nat) : List Ref := (List.range m).map (stageEntry stage n)

/-- The references of an earning's stage journals of one event. -/
def refsOf (L : Ledger) (n : Nat) (event : EntryEvent) : List Ref :=
  ((stageRefs L n).filter fun x => decide (x.1 = event)).map (·.2)

theorem history_succ (stage : Stage) (n m : Nat) :
    history stage n (m + 1) = history stage n m ++ [stageEntry stage n m] := by
  simp [history, List.range_succ]

theorem mem_history_stage {stage st : Stage} {n k m i : Nat} :
    Ref.stage st k i ∈ history stage n m ↔ st = stage ∧ k = n ∧ 2 * i < m := by
  unfold history stageEntry
  simp only [List.mem_map, List.mem_range]
  constructor
  · rintro ⟨x, hx, he⟩
    split at he
    · cases he
      refine ⟨rfl, rfl, ?_⟩
      omega
    · cases he
  · rintro ⟨rfl, rfl, h⟩
    refine ⟨2 * i, h, ?_⟩
    rw [if_pos (by omega), Nat.mul_div_cancel_left i (by omega)]

theorem mem_history_undo {stage st : Stage} {n k m i : Nat} :
    Ref.undo (.stage st k i) ∈ history stage n m ↔ st = stage ∧ k = n ∧ 2 * i + 1 < m := by
  unfold history stageEntry
  simp only [List.mem_map, List.mem_range]
  constructor
  · rintro ⟨x, hx, he⟩
    split at he
    · cases he
    · cases he
      refine ⟨rfl, rfl, ?_⟩
      omega
  · rintro ⟨rfl, rfl, h⟩
    refine ⟨2 * i + 1, h, ?_⟩
    have hi : (2 * i + 1) / 2 = i := by omega
    rw [if_neg (by omega), hi]

theorem stageEntry_isUndo (stage : Stage) (n m : Nat) :
    (stageEntry stage n m).isUndo = decide (m % 2 = 1) := by
  unfold stageEntry
  by_cases h : m % 2 = 0
  · rw [if_pos h, decide_eq_false (by omega)]
    rfl
  · rw [if_neg h, decide_eq_true (by omega)]
    rfl

/-- One step more than undos stands, or none. -/
theorem sum_history (stage : Stage) (n m : Nat) :
    ((history stage n m).map fun r => if r.isUndo then (-1 : Int) else 1).sum = (m % 2 : Nat) := by
  induction m with
  | zero => rfl
  | succ m ih =>
    rw [history_succ, List.map_append, List.sum_append, ih, List.map_singleton, List.sum_singleton,
      stageEntry_isUndo]
    by_cases h : m % 2 = 1
    · rw [decide_eq_true h, if_pos rfl]
      omega
    · rw [decide_eq_false h, if_neg (by simp)]
      omega

theorem length_moves (stage : Stage) (n m : Nat) :
    ((history stage n m).filter fun r => !r.isUndo).length = (m + 1) / 2 := by
  induction m with
  | zero => rfl
  | succ m ih =>
    rw [history_succ, List.filter_append, List.length_append, ih, List.filter_singleton,
      stageEntry_isUndo]
    by_cases h : m % 2 = 1
    · simp only [h, decide_true, Bool.not_true, cond_false, List.length_nil]
      omega
    · simp only [h, decide_false, Bool.not_false, cond_true, List.length_singleton]
      omega

/-- Of a stage's moves only the last can be left standing. -/
theorem filter_history {stage : Stage} {n m : Nat} (undone : Ref → Bool)
    (h : ∀ i, undone (.stage stage n i) = decide (2 * i + 1 < m)) :
    (history stage n m).filter (fun r => !r.isUndo && !undone r) =
      if m % 2 = 1 then [.stage stage n (m / 2)] else [] := by
  have hnone : ∀ k, k < m → (history stage n k).filter (fun r => !r.isUndo && !undone r) = [] := by
    intro k hk
    rw [List.filter_eq_nil_iff]
    intro r hr
    obtain ⟨x, hx, rfl⟩ := List.mem_map.1 hr
    rw [List.mem_range] at hx
    unfold stageEntry
    split
    · rw [h, decide_eq_true (by omega)]
      simp
    · simp [Ref.isUndo]
  cases m with
  | zero => rfl
  | succ m =>
    rw [history_succ, List.filter_append, hnone m (by omega), List.nil_append, List.filter_singleton,
      stageEntry_isUndo]
    by_cases hm : m % 2 = 1
    · rw [if_neg (by omega)]
      simp [hm]
    · have hd : (m + 1) / 2 = m / 2 := by omega
      have he : stageEntry stage n m = .stage stage n (m / 2) := if_pos (by omega)
      have hu : undone (.stage stage n (m / 2)) = false := by
        rw [h]
        exact decide_eq_false (by omega)
      rw [if_pos (by omega), hd, he, hu]
      simp [hm]

/-! ## What a posting adds to them -/

section
variable {L : Ledger} {r : Ref} {i : Info} {legs : List Leg} {n : Nat}

theorem stageRefs_append (L L' : Ledger) (n : Nat) : stageRefs (L ++ L') n = stageRefs L n ++ stageRefs L' n := by
  simp [stageRefs]

theorem stageRefs_write_of_ne (h : i.source ≠ some (.journal n) ∨ i.event.isStage = false) :
    stageRefs (L.write r i legs) n = stageRefs L n := by
  rcases L.write_cases r i legs with ⟨-, he⟩ | ⟨-, -, he⟩ <;> rw [he]
  rw [stageRefs_append]
  rcases h with h | h <;> simp [stageRefs, h]

theorem refsOf_write_own (hnew : L.has r = false) (hl : legs ≠ []) (hs : i.source = some (.journal n))
    (he : i.event.isStage = true) (event : EntryEvent) :
    refsOf (L.write r i legs) n event = refsOf L n event ++ if i.event = event then [r] else [] := by
  rw [Book.write_of_new hnew i hl, refsOf, stageRefs_append, List.filter_append, List.map_append]
  congr 1
  simp only [stageRefs, hs, he, List.filter_singleton, decide_true, Bool.and_self, cond_true]
  split <;> simp_all

/-- The earning's journal and its stage journals. -/
def ownJournal (n : Nat) (j : LedgerJournal) : Bool :=
  decide (j.id = n) || (decide (j.info.source = some (.journal n)) && j.info.event.isStage)

/-- What the earning's own journals put on the selected accounts. -/
def ownOn (L : Ledger) (n : Nat) (q : AccountKey → Bool) : Int :=
  L.sum fun j e => ownJournal n j && q e.key

theorem ownOn_write (hn : n < L.length) (hnew : L.has r = false) (q : AccountKey → Bool) :
    ownOn (L.write r i legs) n q = ownOn L n q +
      if i.source = some (.journal n) ∧ i.event.isStage = true then keyed q legs else 0 := by
  unfold ownOn
  rw [Book.sum_write_new hnew]
  congr 1
  have hid : ¬L.length = n := by omega
  have hown : ownJournal n ⟨L.length, r, i, legs⟩ =
      decide (i.source = some (.journal n) ∧ i.event.isStage = true) := by
    simp [ownJournal, hid]
  rw [hown]
  by_cases h : i.source = some (.journal n) ∧ i.event.isStage = true
  · rw [if_pos h, decide_eq_true h]
    exact sumOf_congr fun e _ => rfl
  · rw [if_neg h, decide_eq_false h]
    exact sumOf_false _

theorem ownOn_write_of_ne (hn : n < L.length) (h : i.source ≠ some (.journal n) ∨ i.event.isStage = false)
    (q : AccountKey → Bool) : ownOn (L.write r i legs) n q = ownOn L n q := by
  cases hr : L.has r with
  | true => rw [Book.write_of_has hr]
  | false =>
    rw [ownOn_write hn hr, if_neg ?_, Int.add_zero]
    rintro ⟨hs, he⟩
    rcases h with h | h
    · exact h hs
    · rw [he] at h
      cases h

end

/-! ## The invariant -/

/-- How many journals of each stage an earning has, and whether it was reversed. -/
structure Progress where
  approvals : Nat
  payments : Nat
  reversed : Bool

def Progress.count (p : Progress) : Stage → Nat
  | .approval => p.approvals
  | .staffPayment => p.payments

def Progress.next (p : Progress) : Stage → Progress
  | .approval => { p with approvals := p.approvals + 1 }
  | .staffPayment => { p with payments := p.payments + 1 }

def Progress.status (p : Progress) : EarningStatus :=
  if p.reversed then .reversed
  else if p.payments % 2 = 1 then .paid
  else if p.approvals % 2 = 1 then .approved
  else .pending

def earningLegs (staffId : Id) (cents : Int) : List Leg :=
  [leg .business .staffCost cents, legOf (.staff staffId) .payable (-cents) .pending]

def stageLegs (stage : Stage) (staffId : Id) (cents : Int) : List Leg :=
  match stage with
  | .approval =>
    [legOf (.staff staffId) .payable cents .pending, legOf (.staff staffId) .payable (-cents) .approved]
  | .staffPayment => [legOf (.staff staffId) .payable cents .approved, leg .business .bank (-cents)]

/-- The legs of an earning, booked against one entity. -/
def EarningLegs (staffId : Id) (cents : Int) (legs : List Leg) : Prop :=
  ∃ t, legs = (earningLegs staffId cents).map fun l => { l with tag := t }

/-- What a live stage journal, or an undone one, counts for. -/
def live (m : Nat) : Int := if m % 2 = 1 then 1 else 0

/-- What an earning's own journals look like after `p`. -/
structure Stages (L : Ledger) (n : Nat) (staffId : Id) (cents : Int) (p : Progress) : Prop where
  refs : ∀ stage, refsOf L n stage.event = history stage n (p.count stage)
  reversal : refsOf L n .reversal = if p.reversed then [.earningReversal n] else []
  paid : p.payments % 2 = 1 → p.approvals % 2 = 1
  untouched : p.reversed = true → p.approvals % 2 = 0
  legs : ∀ j ∈ L, ∀ stage i, j.ref = .stage stage n i → ∀ q,
    keyed q j.legs = keyed q (stageLegs stage staffId cents)
  money : ∀ q, ownOn L n q = (if p.reversed then 0 else keyed q (earningLegs staffId cents)) +
    live p.approvals * keyed q (stageLegs .approval staffId cents) +
    live p.payments * keyed q (stageLegs .staffPayment staffId cents)

/-- What the services keep of the earnings of a ledger. -/
structure EarningsKept (L : Ledger) : Prop where
  wellKept : WellKept L
  sources : ∀ j ∈ L, ∀ k, j.info.source = some (.journal k) → k < L.length
  stages : ∀ j ∈ L, ∀ stage n i, j.ref = .stage stage n i →
    j.info.event = stage.event ∧ j.info.source = some (.journal n)
  undos : ∀ j ∈ L, ∀ r, j.ref = .undo r → ∃ stage n i, r = .stage stage n i ∧
    j.info.event = stage.event ∧ j.info.source = some (.journal n)
  reversals : ∀ j ∈ L, ∀ n, j.ref = .earningReversal n →
    j.info.event = .reversal ∧ j.info.source = some (.journal n)
  earnings : ∀ j ∈ L, j.info.event.isEarning = true → ∃ staffId cents p,
    EarningLegs staffId cents j.legs ∧ cents ≠ 0 ∧ Stages L j.id staffId cents p

theorem live_succ (m : Nat) : live (m + 1) = live m + if m % 2 = 0 then 1 else -1 := by
  unfold live
  by_cases h : m % 2 = 0
  · rw [if_pos (by omega), if_neg (by omega), if_pos h]
    omega
  · rw [if_neg (by omega), if_pos (by omega), if_neg h]
    omega

theorem stage_isStage (stage : Stage) : stage.event.isStage = true := by cases stage <;> rfl

theorem stage_event_ne (stage : Stage) : stage.event ≠ .reversal := by cases stage <;> simp [Stage.event]

theorem stage_not_earning (stage : Stage) : stage.event.isEarning = false := by cases stage <;> rfl

theorem stage_event_inj {stage st : Stage} (h : stage.event = st.event) : stage = st := by
  cases stage <;> cases st <;> first | rfl | cases h

theorem EarningLegs.keyed {staffId : Id} {cents : Int} {legs : List Leg} (h : EarningLegs staffId cents legs)
    (q : AccountKey → Bool) : keyed q legs = keyed q (earningLegs staffId cents) := by
  obtain ⟨t, rfl⟩ := h
  simp only [earningLegs, List.map_cons, List.map_nil, keyed_cons]

theorem mem_refsOf {L : Ledger} {n : Nat} {event : EntryEvent} {r : Ref} :
    r ∈ refsOf L n event ↔ (event, r) ∈ stageRefs L n := by
  simp only [refsOf, List.mem_map, List.mem_filter, decide_eq_true_eq]
  constructor
  · rintro ⟨⟨e, r'⟩, ⟨h, rfl⟩, rfl⟩
    exact h
  · intro h
    exact ⟨_, ⟨h, rfl⟩, rfl⟩

theorem mem_stageRefs {L : Ledger} {n : Nat} {j : LedgerJournal} (hj : j ∈ L)
    (hs : j.info.source = some (.journal n)) (he : j.info.event.isStage = true) :
    j.ref ∈ refsOf L n j.info.event := by
  rw [mem_refsOf]
  simp only [stageRefs, List.mem_map, List.mem_filter]
  exact ⟨j, ⟨hj, by simp [hs, he]⟩, rfl⟩

section
variable {L : Ledger} {n : Nat} {staffId : Id} {cents : Int} {p : Progress}

/-- The status is what the counts say. -/
theorem Stages.status (h : Stages L n staffId cents p) : earningStatus L n = p.status := by
  have hrev : ((EntryEvent.reversal, Ref.earningReversal n) ∈ stageRefs L n) ↔ p.reversed = true := by
    rw [← mem_refsOf, h.reversal]
    split <;> simp_all
  have hnet : ∀ stage, stageNet (stageRefs L n) stage = (p.count stage % 2 : Nat) := by
    intro stage
    have he : stageNet (stageRefs L n) stage =
        ((refsOf L n stage.event).map fun r => if r.isUndo then (-1 : Int) else 1).sum := by
      unfold stageNet refsOf
      rw [List.map_map]
      rfl
    rw [he, h.refs, sum_history]
  have hpay : 0 < stageNet (stageRefs L n) .staffPayment ↔ p.payments % 2 = 1 := by
    rw [hnet]
    show (0 : Int) < (p.payments % 2 : Nat) ↔ _
    omega
  have happ : 0 < stageNet (stageRefs L n) .approval ↔ p.approvals % 2 = 1 := by
    rw [hnet]
    show (0 : Int) < (p.approvals % 2 : Nat) ↔ _
    omega
  unfold earningStatus stageOf Progress.status
  simp only [hrev, hpay, happ]

/-- An undo is read as such whatever stage it is of. -/
theorem Stages.undone (h : Stages L n staffId cents p) (stage : Stage) (i : Nat) :
    Ref.stage stage n i ∈ undoneRefs (stageRefs L n) ↔ 2 * i + 1 < p.count stage := by
  have hmem : Ref.stage stage n i ∈ undoneRefs (stageRefs L n) ↔
      ∃ event, (event, Ref.undo (.stage stage n i)) ∈ stageRefs L n := by
    simp only [undoneRefs, List.mem_filterMap]
    constructor
    · rintro ⟨⟨event, r⟩, hr, he⟩
      cases r with
      | undo r' =>
        simp only [Option.some.injEq] at he
        exact ⟨event, he ▸ hr⟩
      | _ => cases he
    · rintro ⟨event, hr⟩
      exact ⟨_, hr, rfl⟩
  rw [hmem]
  constructor
  · rintro ⟨event, hr⟩
    have hstage : event.isStage = true := by
      obtain ⟨j, hj, he⟩ := List.mem_map.1 hr
      have hev : j.info.event = event := congrArg Prod.fst he
      have hp := (List.mem_filter.1 hj).2
      rw [Bool.and_eq_true] at hp
      exact hev ▸ hp.2
    rw [← mem_refsOf] at hr
    cases event <;> try cases hstage
    · exact (mem_history_undo.1 (h.refs .approval ▸ hr : _ ∈ history .approval n _)).elim
        fun he hi => by subst he; exact hi.2
    · exact (mem_history_undo.1 (h.refs .staffPayment ▸ hr : _ ∈ history .staffPayment n _)).elim
        fun he hi => by subst he; exact hi.2
    · rw [h.reversal] at hr
      split at hr
      · cases List.mem_singleton.1 hr
      · cases hr
  · intro hi
    refine ⟨stage.event, ?_⟩
    rw [← mem_refsOf, h.refs]
    exact mem_history_undo.2 ⟨rfl, rfl, hi⟩

/-- At most one step of a stage stands, the last one. -/
theorem Stages.standing (h : Stages L n staffId cents p) (stage : Stage) :
    standing L n stage = if p.count stage % 2 = 1 then [.stage stage n (p.count stage / 2)] else [] := by
  rw [← filter_history (fun r => decide (r ∈ undoneRefs (stageRefs L n)))
    fun i => decide_eq_decide.2 (h.undone stage i), ← h.refs, refsOf, List.filter_map, List.filter_filter]
  show List.map _ (List.filter _ _) = _
  congr 1
  refine List.filter_congr fun x _ => ?_
  simp only [Function.comp_apply, decide_not]
  ac_rfl

/-- A stage's steps are numbered by how many there are. -/
theorem Stages.moves (h : Stages L n staffId cents p) (stage : Stage) :
    ((stageRefs L n).filter fun x => decide (x.1 = stage.event) && !x.2.isUndo).length =
      (p.count stage + 1) / 2 := by
  rw [← length_moves stage n, ← h.refs, refsOf, List.filter_map, List.filter_filter, List.length_map]
  congr 1
  refine List.filter_congr fun x _ => ?_
  simp only [Function.comp_apply]
  rw [Bool.and_comm]

end

/-! ## Postings that keep it -/

section
variable {L : Ledger} {r : Ref} {i : Info} {legs : List Leg} {n : Nat} {staffId : Id} {cents : Int}
  {p : Progress}

/-- A posting of another kind, or for another earning, changes nothing of this one. -/
theorem Stages.write_other (h : Stages L n staffId cents p) (hn : n < L.length)
    (hs : i.source ≠ some (.journal n) ∨ i.event.isStage = false) (hr : ∀ stage k, r ≠ .stage stage n k) :
    Stages (L.write r i legs) n staffId cents p := by
  have hrefs : ∀ event, refsOf (L.write r i legs) n event = refsOf L n event := by
    intro event
    rw [refsOf, stageRefs_write_of_ne hs, refsOf]
  refine ⟨fun stage => (hrefs _).trans (h.refs stage), (hrefs _).trans h.reversal, h.paid, h.untouched, ?_, ?_⟩
  · intro j hj stage k href
    rcases Book.mem_write hj with hj | ⟨-, -, rfl⟩
    · exact h.legs j hj stage k href
    · exact absurd href (hr stage k)
  · intro q
    rw [ownOn_write_of_ne hn hs]
    exact h.money q

/-- The next journal of a stage. -/
theorem Stages.write_stage (h : Stages L n staffId cents p) (hn : n < L.length) (stage : Stage)
    (hnew : L.has (stageEntry stage n (p.count stage)) = false) (hs : i.source = some (.journal n))
    (he : i.event = stage.event) (hl : legs ≠ [])
    (hlegs : ∀ q, keyed q legs =
      (if p.count stage % 2 = 0 then 1 else -1) * keyed q (stageLegs stage staffId cents))
    (hopen : p.reversed = false)
    (hpaid : (p.next stage).payments % 2 = 1 → (p.next stage).approvals % 2 = 1) :
    Stages (L.write (stageEntry stage n (p.count stage)) i legs) n staffId cents (p.next stage) := by
  have hstage : i.event.isStage = true := he ▸ stage_isStage stage
  have hrefs := refsOf_write_own hnew hl hs hstage
  have hreversed : (p.next stage).reversed = false := by cases stage <;> exact hopen
  refine ⟨fun st => ?_, ?_, hpaid, fun hr => absurd hr (by simp [hreversed]), ?_, fun q => ?_⟩
  · rw [hrefs, h.refs]
    by_cases hst : st = stage
    · subst hst
      have hcount : (p.next st).count st = p.count st + 1 := by cases st <;> rfl
      rw [if_pos he, hcount, history_succ]
    · have hcount : (p.next stage).count st = p.count st := by
        cases stage <;> cases st <;> first | rfl | exact absurd rfl hst
      have hne : i.event ≠ st.event := fun h' => hst (stage_event_inj (h'.symm.trans he))
      rw [if_neg hne, List.append_nil, hcount]
  · have hne : i.event ≠ .reversal := he ▸ stage_event_ne stage
    rw [hrefs, if_neg hne, List.append_nil, h.reversal, hopen, hreversed]
  · intro j hj st k href q
    rcases Book.mem_write hj with hj | ⟨-, -, rfl⟩
    · exact h.legs j hj st k href q
    · simp only at href
      unfold stageEntry at href
      split at href
      · next hm =>
        cases href
        rw [hlegs, if_pos hm, Int.one_mul]
      · cases href
  · rw [ownOn_write hn hnew, if_pos ⟨hs, hstage⟩, h.money, hlegs, hopen, hreversed]
    cases stage with
    | approval =>
      show _ = _ + live (p.approvals + 1) * _ + live p.payments * _
      rw [live_succ]
      show _ + (if p.approvals % 2 = 0 then 1 else -1) * _ = _
      ring
    | staffPayment =>
      show _ = _ + live p.approvals * _ + live (p.payments + 1) * _
      rw [live_succ]
      show _ + (if p.payments % 2 = 0 then 1 else -1) * _ = _
      ring

/-- The reversal of a pending earning. -/
theorem Stages.write_reversal (h : Stages L n staffId cents p) (hn : n < L.length)
    (hnew : L.has (.earningReversal n) = false) (hs : i.source = some (.journal n))
    (he : i.event = .reversal) (hl : legs ≠ [])
    (hlegs : ∀ q, keyed q legs = -keyed q (earningLegs staffId cents)) (hp : p.status = .pending) :
    Stages (L.write (.earningReversal n) i legs) n staffId cents { p with reversed := true } := by
  have hrefs := refsOf_write_own hnew hl hs (he ▸ rfl)
  have hopen : p.reversed = false ∧ p.payments % 2 ≠ 1 ∧ p.approvals % 2 ≠ 1 := by
    unfold Progress.status at hp
    split at hp
    · cases hp
    · next hr =>
      split at hp
      · cases hp
      · next hpay =>
        split at hp
        · cases hp
        · next happ => exact ⟨by simpa using hr, hpay, happ⟩
  refine ⟨fun stage => ?_, ?_, h.paid, fun _ => by show p.approvals % 2 = 0; omega, ?_, fun q => ?_⟩
  · have hne : i.event ≠ stage.event := fun h' => stage_event_ne stage (h'.symm.trans he)
    rw [hrefs, if_neg hne, List.append_nil, h.refs]
    cases stage <;> rfl
  · rw [hrefs, if_pos he, h.reversal, hopen.1]
    rfl
  · intro j hj st k href q
    rcases Book.mem_write hj with hj | ⟨-, -, rfl⟩
    · exact h.legs j hj st k href q
    · cases href
  · rw [ownOn_write hn hnew, if_pos ⟨hs, he ▸ rfl⟩, h.money, hlegs, hopen.1]
    simp only [Bool.false_eq_true, if_false, if_true]
    ring

/-- A new earning has no stage journals yet. -/
theorem EarningsKept.fresh (h : EarningsKept L) (hnew : L.has r = false)
    (he : i.event.isEarning = true) (hr : ∀ stage k, r ≠ .stage stage L.length k)
    (hlegs : EarningLegs staffId cents legs) :
    Stages (L.write r i legs) L.length staffId cents ⟨0, 0, false⟩ := by
  have hstage : i.event.isStage = false := by
    revert he
    cases i.event <;> simp [EntryEvent.isEarning, EntryEvent.isStage]
  have hsource : ∀ j ∈ L, j.info.source ≠ some (.journal L.length) := by
    intro j hj hs
    have hlt := h.sources j hj _ hs
    omega
  have hnone : stageRefs L L.length = [] := by
    rw [stageRefs, List.map_eq_nil_iff, List.filter_eq_nil_iff]
    intro j hj hp
    rw [Bool.and_eq_true] at hp
    exact hsource j hj (of_decide_eq_true hp.1)
  have hrefs : ∀ event, refsOf (L.write r i legs) L.length event = [] := by
    intro event
    rw [refsOf, stageRefs_write_of_ne (.inr hstage), hnone]
    rfl
  refine ⟨fun stage => ?_, hrefs _, by simp, by simp, ?_, fun q => ?_⟩
  · rw [hrefs]
    cases stage <;> rfl
  · intro j hj stage k href
    rcases Book.mem_write hj with hj | ⟨-, -, rfl⟩
    · exact absurd (h.stages j hj stage _ k href).2 (hsource j hj)
    · exact absurd href (hr stage k)
  · have hzero : ownOn L L.length q = 0 := by
      refine Book.sum_eq_zero_of_no_journal fun j hj e => ?_
      obtain ⟨m, hm⟩ := List.mem_iff_getElem?.1 hj
      have hid := h.wellKept.numbered m j hm
      have hlt := (List.getElem?_eq_some_iff.1 hm).1
      have hne : ¬j.id = L.length := by omega
      simp [ownJournal, hne, hsource j hj]
    rw [← hlegs.keyed, ownOn, Book.sum_write_new hnew]
    have hown : ownJournal L.length ⟨L.length, r, i, legs⟩ = true := by simp [ownJournal]
    rw [← ownOn, hzero, hown]
    simp [live, keyed]

/-- A posting keeps the invariant if it keeps every earning's journals. -/
theorem EarningsKept.write (h : EarningsKept L) (hnet : net legs = 0)
    (hs : ∀ k, i.source = some (.journal k) → k < L.length)
    (hstage : ∀ stage m k, r = .stage stage m k → i.event = stage.event ∧ i.source = some (.journal m))
    (hundo : ∀ r', r = .undo r' → ∃ stage m k, r' = .stage stage m k ∧
      i.event = stage.event ∧ i.source = some (.journal m))
    (hrev : ∀ m, r = .earningReversal m → i.event = .reversal ∧ i.source = some (.journal m))
    (hearn : legs ≠ [] → i.event.isEarning = true →
      ∃ staffId cents, EarningLegs staffId cents legs ∧ cents ≠ 0)
    (hkeep : ∀ j ∈ L, j.info.event.isEarning = true → ∃ staffId cents p,
      EarningLegs staffId cents j.legs ∧ cents ≠ 0 ∧ Stages (L.write r i legs) j.id staffId cents p) :
    EarningsKept (L.write r i legs) := by
  have hle : L.length ≤ (L.write r i legs).length := by
    rcases L.write_cases r i legs with ⟨-, he⟩ | ⟨-, -, he⟩ <;> rw [he]
    rw [List.length_append]
    omega
  refine ⟨h.wellKept.write r i hnet, ?_, ?_, ?_, ?_, ?_⟩
  · intro j hj k hk
    rcases Book.mem_write hj with hj | ⟨-, -, rfl⟩
    · exact lt_of_lt_of_le (h.sources j hj k hk) hle
    · exact lt_of_lt_of_le (hs k hk) hle
  · intro j hj stage m k href
    rcases Book.mem_write hj with hj | ⟨-, -, rfl⟩
    · exact h.stages j hj stage m k href
    · exact hstage stage m k href
  · intro j hj r' href
    rcases Book.mem_write hj with hj | ⟨-, -, rfl⟩
    · exact h.undos j hj r' href
    · exact hundo r' href
  · intro j hj m href
    rcases Book.mem_write hj with hj | ⟨-, -, rfl⟩
    · exact h.reversals j hj m href
    · exact hrev m href
  · intro j hj he
    rcases Book.mem_write hj with hj | ⟨hnew, hl, rfl⟩
    · exact hkeep j hj he
    · obtain ⟨staffId, cents, hlegs, hne⟩ := hearn hl he
      refine ⟨staffId, cents, _, hlegs, hne, h.fresh hnew he ?_ hlegs⟩
      rintro stage k rfl
      have hev := (hstage stage _ k rfl).1
      simp only at he
      rw [hev, stage_not_earning] at he
      cases he

/-- A posting that moves or reverses one earning. -/
theorem EarningsKept.write_own (h : EarningsKept L) {j₀ : LedgerJournal} (hj₀ : j₀ ∈ L)
    (hlegs₀ : EarningLegs staffId cents j₀.legs) (hne : cents ≠ 0) (hnet : net legs = 0)
    (hs : i.source = some (.journal j₀.id)) (he : i.event.isStage = true)
    (hstage : ∀ stage m k, r = .stage stage m k → i.event = stage.event ∧ m = j₀.id)
    (hundo : ∀ r', r = .undo r' → ∃ stage k, r' = .stage stage j₀.id k ∧ i.event = stage.event)
    (hrev : ∀ m, r = .earningReversal m → i.event = .reversal ∧ m = j₀.id)
    (hown : Stages (L.write r i legs) j₀.id staffId cents p) : EarningsKept (L.write r i legs) := by
  refine h.write hnet ?_ ?_ ?_ ?_ ?_ ?_
  · intro k hk
    rw [hs] at hk
    cases hk
    exact h.wellKept.id_lt hj₀
  · intro stage m k hr
    obtain ⟨hev, rfl⟩ := hstage stage m k hr
    exact ⟨hev, hs⟩
  · intro r' hr
    obtain ⟨stage, k, hr', hev⟩ := hundo r' hr
    exact ⟨stage, _, k, hr', hev, hs⟩
  · intro m hr
    obtain ⟨hev, rfl⟩ := hrev m hr
    exact ⟨hev, hs⟩
  · intro _ hearn
    revert he hearn
    cases i.event <;> simp [EntryEvent.isEarning, EntryEvent.isStage]
  · intro j hj hearn
    by_cases hid : j.id = j₀.id
    · obtain rfl := h.wellKept.eq_of_id hj hj₀ hid
      exact ⟨staffId, cents, p, hlegs₀, hne, hown⟩
    · obtain ⟨s, a, p', hl, ha, hp'⟩ := h.earnings j hj hearn
      refine ⟨s, a, p', hl, ha, hp'.write_other (h.wellKept.id_lt hj) (.inl ?_) ?_⟩
      · rw [hs]
        intro heq
        exact hid (by simpa using heq.symm)
      · intro stage k hr
        exact hid (hstage stage _ k hr).2

end

/-! ## Moving an earning -/

/-- An earning as it was loaded: whose it is and how much, whatever its status is by now. -/
def Known (L : Ledger) (e : Earning) : Prop :=
  ∃ j ∈ L, j.id = e.id ∧ j.info.event.isEarning = true ∧ EarningLegs e.staffId e.amountCents j.legs ∧
    e.amountCents ≠ 0

/-- The one status a single move starts from; a pay approves a pending earning first. -/
def Move.starts : Move → EarningStatus
  | .approve => .pending
  | .pay | .unapprove => .approved
  | .unpay => .paid

theorem Progress.of_pending {p : Progress} (h : p.status = .pending) :
    p.reversed = false ∧ p.payments % 2 = 0 ∧ p.approvals % 2 = 0 := by
  unfold Progress.status at h
  by_cases hr : p.reversed = true
  · simp [hr] at h
  · by_cases hp : p.payments % 2 = 1
    · simp [hr, hp] at h
    · by_cases ha : p.approvals % 2 = 1
      · simp [hr, hp, ha] at h
      · refine ⟨by simpa using hr, ?_, ?_⟩ <;> omega

theorem Progress.of_approved {p : Progress} (h : p.status = .approved) :
    p.reversed = false ∧ p.payments % 2 = 0 ∧ p.approvals % 2 = 1 := by
  unfold Progress.status at h
  by_cases hr : p.reversed = true
  · simp [hr] at h
  · by_cases hp : p.payments % 2 = 1
    · simp [hr, hp] at h
    · by_cases ha : p.approvals % 2 = 1
      · refine ⟨by simpa using hr, ?_, ha⟩
        omega
      · simp [hr, hp, ha] at h

theorem Progress.of_paid {p : Progress} (h : p.status = .paid) :
    p.reversed = false ∧ p.payments % 2 = 1 := by
  unfold Progress.status at h
  by_cases hr : p.reversed = true
  · simp [hr] at h
  · by_cases hp : p.payments % 2 = 1
    · exact ⟨by simpa using hr, hp⟩
    · by_cases ha : p.approvals % 2 = 1 <;> simp [hr, hp, ha] at h

/-- What a move starts from, in counts: it undoes an odd stage and adds to an even one. -/
theorem Move.counts {move : Move} {p : Progress} (h : p.status = move.starts) :
    p.reversed = false ∧ (p.count move.stage % 2 = 1 ↔ move.isUndo = true) ∧
      ((p.next move.stage).payments % 2 = 1 → (p.next move.stage).approvals % 2 = 1) := by
  cases move with
  | approve =>
    obtain ⟨hr, hp, ha⟩ := Progress.of_pending h
    refine ⟨hr, ?_, ?_⟩
    · show p.approvals % 2 = 1 ↔ false = true
      simp [ha]
    · show p.payments % 2 = 1 → (p.approvals + 1) % 2 = 1
      omega
  | pay =>
    obtain ⟨hr, hp, ha⟩ := Progress.of_approved h
    refine ⟨hr, ?_, ?_⟩
    · show p.payments % 2 = 1 ↔ false = true
      simp [hp]
    · show (p.payments + 1) % 2 = 1 → p.approvals % 2 = 1
      omega
  | unapprove =>
    obtain ⟨hr, hp, ha⟩ := Progress.of_approved h
    refine ⟨hr, ?_, ?_⟩
    · show p.approvals % 2 = 1 ↔ true = true
      simp [ha]
    · show p.payments % 2 = 1 → (p.approvals + 1) % 2 = 1
      omega
  | unpay =>
    obtain ⟨hr, hp⟩ := Progress.of_paid h
    refine ⟨hr, ?_, ?_⟩
    · show p.payments % 2 = 1 ↔ true = true
      simp [hp]
    · show (p.payments + 1) % 2 = 1 → p.approvals % 2 = 1
      omega

theorem keyed_stageLegs (stage : Stage) (staffId : Id) (cents : Int) :
    ∃ q, keyed q (stageLegs stage staffId cents) = cents := by
  cases stage with
  | approval =>
    refine ⟨fun k => decide (k.code = .pending), ?_⟩
    simp [stageLegs]
  | staffPayment =>
    refine ⟨fun k => decide (k.category = .payable), ?_⟩
    simp [stageLegs]

theorem net_stageLegs (stage : Stage) (staffId : Id) (cents : Int) :
    net (stageLegs stage staffId cents) = 0 := by
  cases stage <;> simp [stageLegs]

section
variable {L : Ledger} {n : Nat} {staffId : Id} {cents : Int} {p : Progress}

/-- The references an earning's next journals take are free. -/
theorem EarningsKept.entry_new (h : EarningsKept L) (hp : Stages L n staffId cents p) (stage : Stage) :
    L.has (stageEntry stage n (p.count stage)) = false := by
  rw [Book.has_false_iff]
  intro j hj href
  unfold stageEntry at href
  split at href
  · obtain ⟨hev, hs⟩ := h.stages j hj stage n _ href
    have hmem := mem_stageRefs hj hs (hev ▸ stage_isStage stage)
    rw [hev, hp.refs, href, mem_history_stage] at hmem
    omega
  · obtain ⟨st, m, i, hr, hev, hs⟩ := h.undos j hj _ href
    cases hr
    have hmem := mem_stageRefs hj hs (hev ▸ stage_isStage stage)
    rw [hev, hp.refs, href, mem_history_undo] at hmem
    omega

theorem EarningsKept.reversal_new (h : EarningsKept L) (hp : Stages L n staffId cents p)
    (hr : p.reversed = false) : L.has (.earningReversal n) = false := by
  rw [Book.has_false_iff]
  intro j hj href
  obtain ⟨hev, hs⟩ := h.reversals j hj n href
  have hmem := mem_stageRefs hj hs (by rw [hev]; rfl)
  rw [hev, hp.reversal, hr] at hmem
  simp at hmem

/-- The journal of the last move of a stage that stands. -/
theorem Stages.find_move (h : EarningsKept L) (hp : Stages L n staffId cents p) {stage : Stage}
    (hodd : p.count stage % 2 = 1) :
    ∃ j ∈ L, L.find (.stage stage n (p.count stage / 2)) = some j ∧
      j.ref = .stage stage n (p.count stage / 2) := by
  have hmem : Ref.stage stage n (p.count stage / 2) ∈ refsOf L n stage.event := by
    rw [hp.refs, mem_history_stage]
    refine ⟨rfl, rfl, ?_⟩
    omega
  rw [mem_refsOf] at hmem
  obtain ⟨j, hj, he⟩ := List.mem_map.1 hmem
  have href : j.ref = .stage stage n (p.count stage / 2) := congrArg Prod.snd he
  have hin := (List.mem_filter.1 hj).1
  exact ⟨j, hin, href ▸ h.wellKept.find_eq_some hin, href⟩

end

/-- What a move of an earning writes: the next journal of its stage. -/
structure MoveWritten (L : Ledger) (e : Earning) (p : Progress) (move : Move) (metadata : Metadata)
    (i : Info) (legs : List Leg) : Prop where
  source : i.source = some (.journal e.id)
  event : i.event = move.stage.event
  nonempty : legs ≠ []
  balanced : net legs = 0
  keyed : ∀ q, keyed q legs = (if p.count move.stage % 2 = 0 then 1 else -1) *
    keyed q (stageLegs move.stage e.staffId e.amountCents)
  run : move.isUndo = false → i.metadata = metadata

/-- **A move never fails**: an undo finds exactly one journal to undo. -/
theorem EarningsKept.moveEarning_eq {L : Ledger} (h : EarningsKept L) {e : Earning} {p : Progress}
    (hp : Stages L e.id e.staffId e.amountCents p) (hne : e.amountCents ≠ 0) {move : Move}
    (hs : p.status = move.starts) (metadata : Metadata) :
    ∃ i legs, moveEarning L e move metadata =
        .ok (L.write (stageEntry move.stage e.id (p.count move.stage)) i legs) ∧
      MoveWritten L e p move metadata i legs := by
  obtain ⟨hopen, hodd, -⟩ := Move.counts hs
  obtain ⟨q₀, hq₀⟩ := keyed_stageLegs move.stage e.staffId e.amountCents
  unfold moveEarning
  by_cases hu : move.isUndo = true
  · have hcount := hodd.2 hu
    obtain ⟨j, hj, hfind, href⟩ := hp.find_move h hcount
    have hentry : stageEntry move.stage e.id (p.count move.stage) =
        .undo (.stage move.stage e.id (p.count move.stage / 2)) := if_neg (by omega)
    have hkeyed : ∀ q, keyed q (nonzero (negate j.legs)) =
        (if p.count move.stage % 2 = 0 then 1 else -1) *
          keyed q (stageLegs move.stage e.staffId e.amountCents) := by
      intro q
      have hneg : keyed q (nonzero (negate j.legs)) = -keyed q j.legs :=
        sumOf_reversal j (fun e => q e.key) fun _ _ => rfl
      rw [hneg, hp.legs j hj _ _ href, if_neg (by omega)]
      ring
    refine ⟨⟨move.stage.event, some (.journal e.id), { run := j.info.metadata.run }⟩,
      nonzero (negate j.legs), ?_, ?_⟩
    · rw [if_pos hu, hp.standing, if_pos hcount]
      simp only [hfind]
      rw [reverse_eq (h.wellKept.balanced j hj), hentry]
      rfl
    · refine ⟨rfl, rfl, ?_, ?_, hkeyed, fun hf => absurd hu (by simp [hf])⟩
      · intro hnil
        have hzero := hkeyed q₀
        rw [hnil, keyed_nil, hq₀, if_neg (by omega)] at hzero
        omega
      · rw [net_nonzero, net_negate, h.wellKept.balanced j hj, Int.neg_zero]
  · have hcount : p.count move.stage % 2 = 0 := by
      have hn := mt hodd.1 hu
      omega
    have hentry : stageEntry move.stage e.id (p.count move.stage) =
        .stage move.stage e.id (p.count move.stage / 2) := if_pos hcount
    have hlegs : (stagePosting L e move.stage metadata).legs =
        stageLegs move.stage e.staffId e.amountCents := by
      cases move.stage <;> rfl
    have href : (stagePosting L e move.stage metadata).ref =
        .stage move.stage e.id (p.count move.stage / 2) := by
      show Ref.stage _ _ _ = _
      rw [hp.moves]
      congr 1
      omega
    have hkeyed : ∀ q, keyed q (stagePosting L e move.stage metadata).written =
        (if p.count move.stage % 2 = 0 then 1 else -1) *
          keyed q (stageLegs move.stage e.staffId e.amountCents) := by
      intro q
      rw [keyed_written, hlegs, if_pos hcount, Int.one_mul]
    refine ⟨(stagePosting L e move.stage metadata).info, (stagePosting L e move.stage metadata).written,
      ?_, ?_⟩
    · rw [if_neg hu, post_eq (by rw [hlegs]; exact net_stageLegs _ _ _), href, hentry]
    · refine ⟨rfl, rfl, ?_, ?_, hkeyed, fun _ => rfl⟩
      · intro hnil
        have hzero := hkeyed q₀
        rw [hnil, keyed_nil, hq₀, if_pos hcount] at hzero
        omega
      · rw [net_written, hlegs]
        exact net_stageLegs _ _ _

/-! ## One step of one earning -/

theorem EarningLegs.unique {s s' : Id} {a a' : Int} {legs : List Leg} (h : EarningLegs s a legs)
    (h' : EarningLegs s' a' legs) : s = s' ∧ a = a' := by
  obtain ⟨t, rfl⟩ := h
  obtain ⟨t', he⟩ := h'
  simp only [earningLegs, List.map_cons, List.map_nil, leg, legOf, List.cons.injEq, Bookkeeping.Entry.mk.injEq,
    AccountKey.mk.injEq, Owner.staff.injEq] at he
  exact ⟨he.2.1.1.1, he.1.2.1⟩

theorem Known.stages {L : Ledger} {e : Earning} (h : EarningsKept L) (hk : Known L e) :
    ∃ p, Stages L e.id e.staffId e.amountCents p := by
  obtain ⟨j, hj, hid, he, hl, -⟩ := hk
  obtain ⟨s, a, p, hl', -, hp⟩ := h.earnings j hj he
  obtain ⟨rfl, rfl⟩ := hl.unique hl'
  exact ⟨p, hid ▸ hp⟩

/-- A move of an earning from the status it has, or the reversal of a pending one. -/
inductive Advance (n : Nat) (L : Ledger) : Ledger → Prop
  | move {e : Earning} {move : Move} {metadata : Metadata} {L' : Ledger} (hid : e.id = n) (hk : Known L e)
      (hs : earningStatus L n = move.starts) (h : moveEarning L e move metadata = .ok L') : Advance n L L'
  | reverse {j : LedgerJournal} {L' : Ledger} (hj : j ∈ L) (hid : j.id = n)
      (he : j.info.event.isEarning = true) (hs : earningStatus L n = .pending)
      (h : reversePlain L j (.earningReversal n) = .ok L') : Advance n L L'

theorem next_stage_odd {p : Progress} (stage : Stage) (h : p.reversed = false)
    (hpaid : stage = .approval → p.payments % 2 = 0) :
    (p.next stage).status = match stage with
      | .approval => if p.approvals % 2 = 0 then .approved else .pending
      | .staffPayment => if p.payments % 2 = 0 then .paid
        else if p.approvals % 2 = 1 then .approved else .pending := by
  cases stage with
  | approval =>
    have hp : ¬p.payments % 2 = 1 := by
      have h0 := hpaid rfl
      omega
    by_cases ha : p.approvals % 2 = 0
    · have hs : (p.approvals + 1) % 2 = 1 := by omega
      simp [Progress.next, Progress.status, h, hp, ha, hs]
    · have hs : ¬(p.approvals + 1) % 2 = 1 := by omega
      simp [Progress.next, Progress.status, h, hp, ha, hs]
  | staffPayment =>
    by_cases hp : p.payments % 2 = 0
    · have hs : (p.payments + 1) % 2 = 1 := by omega
      simp [Progress.next, Progress.status, h, hp, hs]
    · have hs : ¬(p.payments + 1) % 2 = 1 := by omega
      simp [Progress.next, Progress.status, h, hp, hs]

/-- The status a single move leads to. -/
def Move.leads : Move → EarningStatus
  | .approve | .unpay => .approved
  | .pay => .paid
  | .unapprove => .pending

theorem next_status {move : Move} {p : Progress} (h : p.status = move.starts)
    (hpaid : p.payments % 2 = 1 → p.approvals % 2 = 1) : (p.next move.stage).status = move.leads := by
  cases move with
  | approve =>
    obtain ⟨hr, hp, ha⟩ := Progress.of_pending h
    rw [show Move.stage .approve = .approval from rfl, next_stage_odd .approval hr fun _ => hp]
    simp [ha, Move.leads]
  | pay =>
    obtain ⟨hr, hp, ha⟩ := Progress.of_approved h
    rw [show Move.stage .pay = .staffPayment from rfl, next_stage_odd .staffPayment hr (by simp)]
    simp [hp, Move.leads]
  | unapprove =>
    obtain ⟨hr, hp, ha⟩ := Progress.of_approved h
    rw [show Move.stage .unapprove = .approval from rfl, next_stage_odd .approval hr fun _ => hp]
    simp [ha, Move.leads]
  | unpay =>
    obtain ⟨hr, hp⟩ := Progress.of_paid h
    rw [show Move.stage .unpay = .staffPayment from rfl, next_stage_odd .staffPayment hr (by simp)]
    simp [hp, hpaid hp, Move.leads]

section
variable {L L' : Ledger} {n : Nat}

/-- The references of stage journals and of reversals, which only the earnings write. -/
def Ref.isStaged : Ref → Bool
  | .stage _ _ _ | .undo _ | .earningReversal _ => true
  | _ => false

/-- What one step writes: a journal of that earning. -/
structure Advanced (n : Nat) (L L' : Ledger) : Prop where
  kept : EarningsKept L'
  written : ∃ r i legs, L' = L.write r i legs ∧ r.isStaged = true ∧ i.source = some (.journal n)

theorem EarningsKept.moved (h : EarningsKept L) {e : Earning} {move : Move} {metadata : Metadata}
    (hid : e.id = n) (hk : Known L e) (hs : earningStatus L n = move.starts)
    (hm : moveEarning L e move metadata = .ok L') :
    Advanced n L L' ∧ earningStatus L' n = move.leads := by
  subst hid
  obtain ⟨p, hp⟩ := hk.stages h
  obtain ⟨j, hj, hid, he, hl, hne⟩ := hk
  rw [hp.status] at hs
  obtain ⟨i, legs, heq, hw⟩ := h.moveEarning_eq hp hne hs metadata
  rw [heq] at hm
  cases hm
  obtain ⟨hopen, -, hpaid⟩ := Move.counts hs
  have hlt : e.id < L.length := hid ▸ h.wellKept.id_lt hj
  have hown := hp.write_stage hlt move.stage (h.entry_new hp move.stage) hw.source hw.event hw.nonempty
    hw.keyed hopen hpaid
  have hstage : i.event.isStage = true := by
    rw [hw.event]
    exact stage_isStage _
  refine ⟨⟨?_, _, i, legs, rfl, ?_, hw.source⟩, ?_⟩
  · refine h.write_own hj hl hne hw.balanced (hid ▸ hw.source) hstage ?_ ?_ ?_
      (by rw [hid]; exact hown)
    · intro stage m k hr
      unfold stageEntry at hr
      split at hr
      · cases hr
        exact ⟨hw.event, hid.symm⟩
      · cases hr
    · intro r' hr
      unfold stageEntry at hr
      split at hr
      · cases hr
      · cases hr
        exact ⟨_, _, by rw [hid], hw.event⟩
    · intro m hr
      unfold stageEntry at hr
      split at hr <;> cases hr
  · unfold stageEntry
    split <;> rfl
  · rw [hown.status]
    exact next_status hs hp.paid

theorem EarningsKept.reversed (h : EarningsKept L) {j : LedgerJournal} (hj : j ∈ L) (hid : j.id = n)
    (he : j.info.event.isEarning = true) (hs : earningStatus L n = .pending)
    (hr : reversePlain L j (.earningReversal n) = .ok L') :
    Advanced n L L' ∧ earningStatus L' n = .reversed := by
  subst hid
  obtain ⟨s, a, p, hl, hne, hp⟩ := h.earnings j hj he
  rw [hp.status] at hs
  have hopen := (Progress.of_pending hs).1
  have hnew := h.reversal_new hp hopen
  rw [reversePlain, reverse_eq (h.wellKept.balanced j hj)] at hr
  cases hr
  have hkeyed : ∀ q, keyed q (nonzero (negate j.legs)) = -keyed q (earningLegs s a) := by
    intro q
    have hneg : keyed q (nonzero (negate j.legs)) = -keyed q j.legs :=
      sumOf_reversal j (fun e => q e.key) fun _ _ => rfl
    rw [hneg, hl.keyed]
  have hnil : nonzero (negate j.legs) ≠ [] := by
    intro hnil
    have hzero := hkeyed fun k => decide (k.category = .staffCost)
    rw [hnil] at hzero
    simp [earningLegs] at hzero
    exact hne hzero
  have hown := hp.write_reversal (h.wellKept.id_lt hj) hnew
    (i := ⟨.reversal, some (.journal j.id), {}⟩) rfl rfl hnil hkeyed hs
  refine ⟨⟨?_, _, _, _, rfl, rfl, rfl⟩, ?_⟩
  · refine h.write_own hj hl hne ?_ rfl rfl ?_ ?_ ?_ hown
    · rw [net_nonzero, net_negate, h.wellKept.balanced j hj, Int.neg_zero]
    · intro stage m k hr
      cases hr
    · intro r' hr
      cases hr
    · intro m hr
      cases hr
      exact ⟨rfl, rfl⟩
  · exact hown.status.trans (by simp [Progress.status])

theorem EarningsKept.advance (h : EarningsKept L) (ha : Advance n L L') : Advanced n L L' := by
  cases ha with
  | move hid hk hs hm => exact (h.moved hid hk hs hm).1
  | reverse hj hid he hs hr => exact (h.reversed hj hid he hs hr).1

theorem Advanced.mem (h : Advanced n L L') {j : LedgerJournal} (hj : j ∈ L) : j ∈ L' := by
  obtain ⟨r, i, legs, rfl, -⟩ := h.written
  exact Book.mem_write_of_mem hj r i legs

/-- The other earnings' stages stay as they are. -/
theorem Advanced.stageRefs_eq (h : Advanced n L L') {m : Nat} (hne : m ≠ n) :
    stageRefs L' m = stageRefs L m := by
  obtain ⟨r, i, legs, rfl, -, hs⟩ := h.written
  refine stageRefs_write_of_ne (.inl ?_)
  rw [hs]
  simpa using hne.symm

theorem Advanced.known (h : Advanced n L L') {e : Earning} (hk : Known L e) : Known L' e := by
  obtain ⟨j, hj, hrest⟩ := hk
  exact ⟨j, h.mem hj, hrest⟩

end

/-! ## Moving several earnings -/

/-- Steps of any earnings. -/
def Advances : Ledger → Ledger → Prop := Relation.ReflTransGen fun L L' => ∃ n, Advance n L L'

theorem EarningsKept.advances {L L' : Ledger} (h : EarningsKept L) (ha : Advances L L') : EarningsKept L' := by
  induction ha with
  | refl => exact h
  | tail _ hs ih =>
    obtain ⟨n, hs⟩ := hs
    exact (ih.advance hs).kept

/-- A step of one earning, or the approval and the payment of it. -/
theorem EarningsKept.moveOne {L L' : Ledger} (h : EarningsKept L) {e : Earning} {move : Move}
    {metadata : Metadata} (hk : Known L e) (hs : earningStatus L e.id = e.status)
    (hfrom : e.status ∈ move.from) (hm : moveOne L move metadata e = .ok L') :
    ∃ L₁, (L₁ = L ∨ move = .pay ∧ e.status = .pending ∧ moveEarning L e .approve {} = .ok L₁ ∧
        Advance e.id L L₁) ∧
      EarningsKept L₁ ∧ moveEarning L₁ e move metadata = .ok L' ∧ Known L₁ e ∧
      earningStatus L₁ e.id = move.starts ∧ Advance e.id L₁ L' := by
  unfold ClientBridge.moveOne at hm
  split at hm
  · next hpay =>
    obtain ⟨L₁, h₁, h₂⟩ := bind_ok hm
    obtain ⟨rfl, hpending⟩ := hpay
    have hstart : earningStatus L e.id = Move.starts .approve := hs.trans hpending
    obtain ⟨hadv, hstatus⟩ := h.moved rfl hk hstart h₁
    have hk₁ := hadv.known hk
    have hstatus : earningStatus L₁ e.id = Move.starts .pay := hstatus
    exact ⟨L₁, .inr ⟨rfl, hpending, h₁, .move rfl hk hstart h₁⟩, hadv.kept, h₂, hk₁, hstatus,
      .move rfl hk₁ hstatus h₂⟩
  · next hpay =>
    have h₂ : moveEarning L e move metadata = .ok L' := hm
    have hstart : earningStatus L e.id = move.starts := by
      rw [hs]
      cases move with
      | pay =>
        simp only [Move.from, List.mem_cons, List.not_mem_nil, or_false] at hfrom
        rcases hfrom with hf | hf
        · exact absurd ⟨rfl, hf⟩ hpay
        · exact hf
      | _ => exact List.mem_singleton.1 hfrom
    exact ⟨L, .inl rfl, h, h₂, hk, hstart, .move rfl hk hstart h₂⟩

/-- Earnings ready for a move: loaded from the ledger, in a status it starts from. -/
structure Ready (L : Ledger) (move : Move) (e : Earning) : Prop where
  known : Known L e
  status : earningStatus L e.id = e.status
  start : e.status ∈ move.from

/-- What moving one earning leaves of the others. -/
structure Moved (move : Move) (ids : List Nat) (L L' : Ledger) : Prop where
  advances : Advances L L'
  status : ∀ n ∈ ids, earningStatus L' n = move.leads
  others : ∀ n, n ∉ ids → stageRefs L' n = stageRefs L n

theorem EarningsKept.moveOne_moved {L L' : Ledger} (h : EarningsKept L) {e : Earning} {move : Move}
    {metadata : Metadata} (hr : Ready L move e) (hm : ClientBridge.moveOne L move metadata e = .ok L') :
    Moved move [e.id] L L' := by
  obtain ⟨L₁, hL₁, hkept₁, hmove, hk₁, hs₁, hadv⟩ := h.moveOne hr.known hr.status hr.start hm
  refine ⟨?_, ?_, ?_⟩
  · rcases hL₁ with rfl | ⟨-, -, -, hadv₁⟩
    · exact .single ⟨_, hadv⟩
    · exact .tail (.single ⟨_, hadv₁⟩) ⟨_, hadv⟩
  · intro n hn
    obtain rfl := List.mem_singleton.1 hn
    exact (hkept₁.moved rfl hk₁ hs₁ hmove).2
  · intro n hn
    have hne : n ≠ e.id := fun heq => hn (List.mem_singleton.2 heq)
    rw [(hkept₁.advance hadv).stageRefs_eq hne]
    rcases hL₁ with rfl | ⟨-, -, -, hadv₁⟩
    · rfl
    · exact (h.advance hadv₁).stageRefs_eq hne

theorem Advances.known {L L' : Ledger} (ha : Advances L L') (h : EarningsKept L) {e : Earning}
    (hk : Known L e) : Known L' e := by
  induction ha with
  | refl => exact hk
  | tail hs ha ih =>
    obtain ⟨n, ha⟩ := ha
    exact ((h.advances hs).advance ha).known ih

/-- The earnings still to be moved stay ready. -/
theorem Moved.ready {L L' : Ledger} {move : Move} {ids : List Nat} (hm : Moved move ids L L')
    (h : EarningsKept L) {e : Earning} (hr : Ready L move e) (hne : e.id ∉ ids) : Ready L' move e := by
  refine ⟨hm.advances.known h hr.known, ?_, hr.start⟩
  rw [← hr.status, earningStatus, hm.others _ hne, earningStatus]

theorem EarningsKept.moveAll {move : Move} {metadata : Metadata} {ready : List Earning}
    (hn : (ready.map (·.id)).Nodup) {L L' : Ledger} (h : EarningsKept L)
    (hr : ∀ e ∈ ready, Ready L move e)
    (hm : ready.foldlM (fun L e => ClientBridge.moveOne L move metadata e) L = .ok L') :
    Moved move (ready.map (·.id)) L L' := by
  induction ready generalizing L with
  | nil =>
    cases hm
    exact ⟨.refl, by simp, fun n _ => rfl⟩
  | cons e ready ih =>
    rw [List.foldlM_cons] at hm
    obtain ⟨L₁, h₁, hm⟩ := bind_ok hm
    obtain ⟨hnot, hn⟩ := List.nodup_cons.1 hn
    have hfirst := h.moveOne_moved (hr e List.mem_cons_self) h₁
    have hrest := ih hn (h.advances hfirst.advances) (fun e' he' =>
      hfirst.ready h (hr e' (List.mem_cons_of_mem _ he')) fun hin =>
        hnot (List.mem_map.2 ⟨e', he', List.mem_singleton.1 hin⟩)) hm
    refine ⟨hfirst.advances.trans hrest.advances, ?_, ?_⟩
    · intro n hn
      rcases List.mem_cons.1 hn with rfl | hn
      · rw [earningStatus, hrest.others _ hnot]
        exact hfirst.status _ (List.mem_singleton_self _)
      · exact hrest.status n hn
    · intro n hn
      rw [List.map_cons, List.mem_cons, not_or] at hn
      rw [hrest.others n hn.2, hfirst.others n (by simpa using hn.1)]

/-- A move of an earning in a status it starts from goes through. -/
theorem EarningsKept.move_total {L : Ledger} (h : EarningsKept L) {e : Earning} {move : Move}
    (metadata : Metadata) (hk : Known L e) (hs : earningStatus L e.id = move.starts) :
    ∃ L', moveEarning L e move metadata = .ok L' := by
  obtain ⟨p, hp⟩ := hk.stages h
  obtain ⟨j, -, -, -, -, hne⟩ := hk
  obtain ⟨i, legs, heq, -⟩ := h.moveEarning_eq hp hne (hp.status.symm.trans hs) metadata
  exact ⟨_, heq⟩

theorem EarningsKept.moveOne_total {L : Ledger} (h : EarningsKept L) {e : Earning} {move : Move}
    (metadata : Metadata) (hr : Ready L move e) : ∃ L', ClientBridge.moveOne L move metadata e = .ok L' := by
  unfold ClientBridge.moveOne
  by_cases hpay : move = .pay ∧ e.status = .pending
  · rw [if_pos hpay]
    obtain ⟨rfl, hpending⟩ := hpay
    have hstart : earningStatus L e.id = Move.starts .approve := hr.status.trans hpending
    obtain ⟨L₁, h₁⟩ := h.move_total {} hr.known hstart
    obtain ⟨hadv, hstatus⟩ := h.moved rfl hr.known hstart h₁
    have hstatus : earningStatus L₁ e.id = Move.starts .pay := hstatus
    obtain ⟨L', h'⟩ := hadv.kept.move_total metadata (hadv.known hr.known) hstatus
    refine ⟨L', ?_⟩
    rw [h₁]
    exact h'
  · rw [if_neg hpay]
    have hstart : earningStatus L e.id = move.starts := by
      rw [hr.status]
      have hfrom := hr.start
      cases move with
      | pay =>
        simp only [Move.from, List.mem_cons, List.not_mem_nil, or_false] at hfrom
        rcases hfrom with hf | hf
        · exact absurd ⟨rfl, hf⟩ hpay
        · exact hf
      | _ => exact List.mem_singleton.1 hfrom
    exact h.move_total metadata hr.known hstart

theorem EarningsKept.moveAll_total {move : Move} (metadata : Metadata) {ready : List Earning}
    (hn : (ready.map (·.id)).Nodup) {L : Ledger} (h : EarningsKept L) (hr : ∀ e ∈ ready, Ready L move e) :
    ∃ L', ready.foldlM (fun L e => ClientBridge.moveOne L move metadata e) L = .ok L' := by
  induction ready generalizing L with
  | nil => exact ⟨L, rfl⟩
  | cons e ready ih =>
    obtain ⟨hnot, hn⟩ := List.nodup_cons.1 hn
    obtain ⟨L₁, h₁⟩ := h.moveOne_total metadata (hr e List.mem_cons_self)
    have hfirst := h.moveOne_moved (hr e List.mem_cons_self) h₁
    obtain ⟨L', h'⟩ := ih hn (h.advances hfirst.advances) fun e' he' =>
      hfirst.ready h (hr e' (List.mem_cons_of_mem _ he')) fun hin =>
        hnot (List.mem_map.2 ⟨e', he', List.mem_singleton.1 hin⟩)
    refine ⟨L', ?_⟩
    rw [List.foldlM_cons, h₁]
    exact h'

theorem mapM_ok {α β : Type} {f : α → Except Error β} {xs : List α} {ys : List β}
    (h : xs.mapM f = .ok ys) : List.Forall₂ (fun x y => f x = .ok y) xs ys := by
  induction xs generalizing ys with
  | nil =>
    cases h
    exact .nil
  | cons x xs ih =>
    rw [List.mapM_cons] at h
    obtain ⟨y, hy, h⟩ := bind_ok h
    obtain ⟨ys', hys, h⟩ := bind_ok h
    cases h
    exact .cons hy (ih hys)

/-- A loaded earning is its journal's payable leg. -/
theorem EarningsKept.load_legs {L : Ledger} (h : EarningsKept L) {n : Nat} {e : Earning}
    (hl : loadEarning L n = some e) :
    ∃ j ∈ L, journalOf L n = some j ∧ j.id = n ∧ j.info.event.isEarning = true ∧ e.amountCents ≠ 0 ∧
      j.legs = (earningLegs e.staffId e.amountCents).map (fun l => { l with tag := e.subject }) ∧
      e.id = n ∧ e.status = earningStatus L n := by
  unfold loadEarning at hl
  split at hl
  · cases hl
  · next j hj =>
    have hmem := List.mem_of_find?_eq_some hj
    have hid : j.id = n := by simpa using List.find?_some hj
    split at hl
    · next he =>
      obtain ⟨s, a, p, ⟨t, ht⟩, hne, -⟩ := h.earnings j hmem he
      have hpay : payableLeg j = some (s, { legOf (.staff s) .payable (-a) .pending with tag := t }) := by
        unfold payableLeg
        rw [ht]
        rfl
      rw [hpay] at hl
      cases hl
      refine ⟨j, hmem, hj, hid, he, ?_, ?_, rfl, rfl⟩
      · simpa [legOf] using hne
      · rw [ht]
        simp [legOf]
    · cases hl

theorem EarningsKept.load {L : Ledger} (h : EarningsKept L) {n : Nat} {e : Earning}
    (hl : loadEarning L n = some e) : e.id = n ∧ Known L e ∧ e.status = earningStatus L n := by
  obtain ⟨j, hj, -, hid, he, hne, hlegs, heid, hs⟩ := h.load_legs hl
  exact ⟨heid, ⟨j, hj, hid.trans heid.symm, he, ⟨_, hlegs⟩, hne⟩, hs⟩

/-- What `moveMany` read, each earning once and in a status the move starts from. -/
theorem EarningsKept.ready_ok {L : Ledger} (h : EarningsKept L) {ids : List Nat} {move : Move}
    {members : List Id} {ready : List Earning}
    (hready : (Dict.fromKeys ids ++ travellers L move members (Dict.fromKeys ids)).mapM (readyEarning L move) =
      .ok ready) :
    (ready.map (·.id)).Nodup ∧ (∀ e ∈ ready, Ready L move e) ∧
      ready.map (·.id) = Dict.fromKeys ids ++ travellers L move members (Dict.fromKeys ids) := by
  have hforall := mapM_ok hready
  have hload : ∀ id e, readyEarning L move id = .ok e → e.id = id ∧ Ready L move e := by
    intro id e he
    unfold readyEarning at he
    split at he
    · cases he
    · next e' hl =>
      obtain ⟨hid, hk, hs⟩ := h.load hl
      split at he
      · next hf =>
        cases he
        exact ⟨hid, hk, hid ▸ hs.symm, hf⟩
      · cases he
  have hids : ready.map (·.id) = Dict.fromKeys ids ++ travellers L move members (Dict.fromKeys ids) := by
    generalize hT : Dict.fromKeys ids ++ travellers L move members (Dict.fromKeys ids) = todo at hforall
    clear hready hT
    induction hforall with
    | nil => rfl
    | cons he _ ih => rw [List.map_cons, ih, (hload _ _ he).1]
  have hnodup : (Dict.fromKeys ids ++ travellers L move members (Dict.fromKeys ids)).Nodup := by
    have hsub : ∀ p : LedgerJournal → Bool, ((L.filter p).map (·.id)).Nodup := by
      intro p
      rw [List.nodup_map_iff_inj_on (h.wellKept.nodup.filter p)]
      intro j hj j' hj' he
      exact h.wellKept.eq_of_id (List.mem_of_mem_filter hj) (List.mem_of_mem_filter hj') he
    rw [List.nodup_append]
    refine ⟨Dict.nodup_fromKeys ids, ?_, ?_⟩
    · unfold travellers
      split
      · exact (hsub _).filter _
      · exact (hsub _).filter _
      · exact List.nodup_nil
    · rintro a ha b hb rfl
      unfold travellers at hb
      split at hb
      · exact of_decide_eq_true (List.mem_filter.1 hb).2 ha
      · exact of_decide_eq_true (List.mem_filter.1 hb).2 ha
      · cases hb
  refine ⟨hids ▸ hnodup, ?_, hids⟩
  generalize Dict.fromKeys ids ++ travellers L move members (Dict.fromKeys ids) = todo at hforall
  clear hids hready
  induction hforall with
  | nil => simp
  | cons he _ ih =>
    intro e' he'
    rcases List.mem_cons.1 he' with rfl | he'
    · exact (hload _ _ he).2
    · exact ih e' he'

/-- What `moveMany` did when it was accepted. -/
theorem EarningsKept.moveMany_ok {L L' : Ledger} (h : EarningsKept L) {ids : List Nat} {move : Move}
    {run : Nat} (hm : moveMany L ids move run = .ok L') :
    ∃ members ready, (ready.map (·.id)).Nodup ∧ (∀ e ∈ ready, Ready L move e) ∧
      ready.map (·.id) = Dict.fromKeys ids ++ travellers L move members (Dict.fromKeys ids) ∧
      (move = .pay → ∀ e ∈ ready, 0 ≤ memberTotal ready e.staffId) ∧
      ready.foldlM (fun L e => ClientBridge.moveOne L move (if move = .pay then { run := some run } else {}) e) L =
        .ok L' := by
  unfold ClientBridge.moveMany at hm
  obtain ⟨members, hmembers, hm⟩ := bind_ok hm
  obtain ⟨ready, hready, hm⟩ := bind_ok hm
  obtain ⟨hnodup, hall, hids⟩ := h.ready_ok hready
  split at hm
  · cases hm
  · next hneg =>
    refine ⟨members, ready, hnodup, hall, hids, ?_, hm⟩
    intro hpay e he
    by_contra hlt
    refine hneg ⟨hpay, ?_⟩
    rw [List.any_eq_true]
    exact ⟨e, he, decide_eq_true (by omega)⟩

theorem EarningsKept.moveMany {L L' : Ledger} (h : EarningsKept L) {ids : List Nat} {move : Move} {run : Nat}
    (hm : moveMany L ids move run = .ok L') : Advances L L' := by
  obtain ⟨members, ready, hn, hr, -, -, hm⟩ := h.moveMany_ok hm
  exact (h.moveAll hn hr hm).advances

theorem mapM_error {α β : Type} {f : α → Except Error β} {xs : List α} {err : Error}
    (h : xs.mapM f = .error err) : ∃ x ∈ xs, f x = .error err := by
  induction xs with
  | nil => cases h
  | cons x xs ih =>
    rw [List.mapM_cons] at h
    rcases bind_error h with hx | ⟨y, -, h⟩
    · exact ⟨x, List.mem_cons_self, hx⟩
    · rcases bind_error h with hxs | ⟨ys, -, h⟩
      · obtain ⟨x', hx', he⟩ := ih hxs
        exact ⟨x', List.mem_cons_of_mem _ hx', he⟩
      · cases h

/-- Whatever a command refuses, it is never that an undo found several journals or none. -/
theorem EarningsKept.moveMany_determinate {L : Ledger} (h : EarningsKept L) (ids : List Nat) (move : Move)
    (run : Nat) : ClientBridge.moveMany L ids move run ≠ .error .indeterminate := by
  intro hm
  unfold ClientBridge.moveMany at hm
  rcases bind_error hm with hmembers | ⟨members, -, hm⟩
  · obtain ⟨id, -, hid⟩ := mapM_error hmembers
    unfold loadMember at hid
    split at hid <;> cases hid
  rcases bind_error hm with hready | ⟨ready, hready, hm⟩
  · obtain ⟨id, -, hid⟩ := mapM_error hready
    unfold readyEarning at hid
    split at hid
    · cases hid
    · split at hid <;> cases hid
  obtain ⟨hn, hall, -⟩ := h.ready_ok hready
  split at hm
  · cases hm
  · obtain ⟨L', hL'⟩ := h.moveAll_total (if move = .pay then { run := some run } else {}) hn hall
    simp only [hL'] at hm
    cases hm

theorem reverseEarning_advances {L L' : Ledger} {j : LedgerJournal} {n : Nat}
    (hj : journalOf L n = some j) (he : j.info.event.isEarning = true)
    (hr : reverseEarning L n = .ok L') : Advances L L' := by
  unfold ClientBridge.reverseEarning at hr
  rw [hj] at hr
  simp only at hr
  split at hr
  · next hs =>
    have hid : j.id = n := by simpa using List.find?_some hj
    exact .single ⟨n, .reverse (List.mem_of_find?_eq_some hj) hid he hs hr⟩
  · cases hr
    exact .refl

/-! ## Other postings -/

/-- A posting that moves or reverses no earning; an earning's has its two legs. -/
structure Foreign (L : Ledger) (q : Posting) : Prop where
  ref : q.ref.isStaged = false
  source : ∀ k, q.source = some (.journal k) → k < L.length ∧
    (q.event.isStage = true → ∀ j ∈ L, j.id = k → j.info.event.isEarning = false)
  legs : q.event.isEarning = true → q.keepZero = false ∧ ∃ staffId cents, EarningLegs staffId cents q.legs

theorem EarningLegs.written {q : Posting} {s : Id} {a : Int} (hk : q.keepZero = false)
    (h : EarningLegs s a q.legs) (hne : q.written ≠ []) : EarningLegs s a q.written ∧ a ≠ 0 := by
  obtain ⟨t, ht⟩ := h
  have ha : a ≠ 0 := by
    rintro rfl
    apply hne
    rw [Posting.written, hk, ht]
    simp [earningLegs, nonzero, leg, legOf]
  refine ⟨⟨t.or q.subject, ?_⟩, ha⟩
  rw [Posting.written, hk, ht]
  simp [earningLegs, nonzero, leg, legOf, ha]

theorem EarningsKept.post {L L' : Ledger} (h : EarningsKept L) {q : Posting} (hq : Foreign L q)
    (hp : post L q = .ok L') : EarningsKept L' := by
  obtain ⟨rfl, hsame | hnet⟩ := post_ok hp
  · rwa [hsame]
  · have hstaged : ∀ r, r.isStaged = true → q.ref ≠ r := by
      rintro r hr rfl
      rw [hq.ref] at hr
      cases hr
    refine h.write (by rw [net_written]; exact hnet) (fun k hk => (hq.source k hk).1) ?_ ?_ ?_ ?_ ?_
    · intro stage m k hr
      exact absurd hr (hstaged _ rfl)
    · intro r hr
      exact absurd hr (hstaged _ rfl)
    · intro m hr
      exact absurd hr (hstaged _ rfl)
    · intro hl he
      obtain ⟨hk, s, a, hlegs⟩ := hq.legs he
      exact ⟨s, a, hlegs.written hk hl⟩
    · intro j hj he
      obtain ⟨s, a, p, hlegs, hne, hst⟩ := h.earnings j hj he
      refine ⟨s, a, p, hlegs, hne, hst.write_other (h.wellKept.id_lt hj) ?_ fun stage k =>
        hstaged _ rfl⟩
      by_cases hs : q.event.isStage = true
      · left
        intro hsrc
        rw [(hq.source _ hsrc).2 hs j hj rfl] at he
        cases he
      · right
        show q.event.isStage = false
        simpa using hs

/-- A failed refund's returned tip is unapproved and reversed, or left alone. -/
theorem EarningsKept.cancelReturnedTip {L L' : Ledger} (h : EarningsKept L) {refundId staffId : Id}
    (hc : cancelReturnedTip L refundId staffId = .ok L') : Advances L L' := by
  unfold ClientBridge.cancelReturnedTip at hc
  split at hc
  · cases hc
    exact .refl
  · next journal hfind =>
    split at hc
    · cases hc
      exact .refl
    · next tip hl =>
      have hj := (Book.find_mem hfind).1
      obtain ⟨hid, hk, hs⟩ := h.load hl
      obtain ⟨j, hj', hjid, he, -⟩ := id hk
      obtain rfl := h.wellKept.eq_of_id hj' hj (hjid.trans hid)
      split at hc
      · next hopen =>
        split at hc
        · next happ =>
          obtain ⟨L₁, h₁, h₂⟩ := bind_ok hc
          have hstart : earningStatus L j.id = Move.starts .unapprove := hs.symm.trans happ
          obtain ⟨hadv, hstatus⟩ := h.moved hid hk hstart h₁
          exact .tail (.single ⟨j.id, .move hid hk hstart h₁⟩)
            ⟨j.id, .reverse (hadv.mem hj) rfl he hstatus h₂⟩
        · next happ =>
          have hpending : earningStatus L j.id = .pending := hs.symm.trans (hopen.resolve_right happ)
          exact .single ⟨j.id, .reverse hj rfl he hpending hc⟩
      · cases hc
        exact .refl

end ClientBridge
