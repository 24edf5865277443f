import ClientBridge.Earnings.ClawbackSteps

/-!
# Runs of the earnings

Moves, reversals, cancelled tips, clawback runs and other postings follow each other in any
order, from an empty ledger on.  Both invariants hold wherever they lead (`earning_run`), so an
earning's own journals leave its amount on the account of its status, and an undo finds exactly
one journal to undo (`stages_agree`).
-/

namespace ClientBridge

open Bookkeeping Runs

/-! ## Steps -/

inductive EarningAction where
  | move (ids : List Nat) (move : Move) (run : Nat)
  | reverse (n : Nat)
  | cancelTip (refundId staffId : Id)
  | clawBack (subject : Subject) (lineIds : List Id)
  | clawBackPackage (packageId : Id)
  | post (q : Posting)

/-- A command of the earnings service, a reversal, a clawback run, or a posting of another kind. -/
inductive EarningStep (L : Ledger) : EarningAction → Ledger → Prop
  | move {ids move run L'} (h : moveMany L ids move run = .ok L') : EarningStep L (.move ids move run) L'
  | reverse {n j L'} (hj : journalOf L n = some j) (he : j.info.event.isEarning = true)
      (h : reverseEarning L n = .ok L') : EarningStep L (.reverse n) L'
  | cancelTip {refundId staffId L'} (h : cancelReturnedTip L refundId staffId = .ok L') :
      EarningStep L (.cancelTip refundId staffId) L'
  | clawBack {subject lineIds L'} (h : clawBack L subject lineIds = .ok L') :
      EarningStep L (.clawBack subject lineIds) L'
  | clawBackPackage {packageId L'} (h : clawBackPackage L packageId = .ok L') :
      EarningStep L (.clawBackPackage packageId) L'
  | post {q L'} (hq : Foreign L q) (hr : q.ref.isClawback = false) (h : post L q = .ok L') :
      EarningStep L (.post q) L'

/-! ## Clawback runs over several earnings -/

/-- Only what clawback runs of these earnings write was written. -/
def ClawbacksWritten (ms : List Nat) (L L' : Ledger) : Prop :=
  Extends (fun j => ∃ m ∈ ms, ClawbackWritten L m j) L L'

section
variable {L L' : Ledger} {ms : List Nat}

theorem clawback_of_one (h : WellKept L) {c m n : Nat} (hm : c ∈ clawbacks L m) (hn : c ∈ clawbacks L n) :
    m = n := by
  obtain ⟨j, hj, hid, -, i, hr⟩ := mem_clawbacks.1 hm
  obtain ⟨j', hj', hid', -, i', hr'⟩ := mem_clawbacks.1 hn
  obtain rfl := h.eq_of_id hj hj' (hid.trans hid'.symm)
  rw [hr] at hr'
  cases hr'
  rfl

/-- What is no clawback of these earnings is loaded as before. -/
theorem ClawbacksWritten.load_eq (hx : ClawbacksWritten ms L L') (h : EarningsKept L) {n : Nat}
    (hn : ∀ m ∈ ms, n ∉ clawbacks L m) (hj : (journalOf L n).isSome) :
    loadEarning L' n = loadEarning L n ∧ earningStatus L' n = earningStatus L n := by
  have hrefs : stageRefs L' n = stageRefs L n := by
    refine stageRefs_of_extends hx fun j hp => ?_
    obtain ⟨m, hm, ⟨c, hc, -, -, -, hs⟩ | ⟨-, he⟩, -⟩ := hp
    · left
      rw [hs]
      intro heq
      obtain rfl : c = n := by simpa using heq
      exact hn m hm hc
    · right
      rw [he]
      rfl
  have hstatus : earningStatus L' n = earningStatus L n := by rw [earningStatus, hrefs, earningStatus]
  refine ⟨?_, hstatus⟩
  obtain ⟨C, rfl, -⟩ := hx
  rw [loadEarning_append hj, hstatus]
  cases hl : loadEarning L n with
  | none => rfl
  | some e => rw [Option.map_some, ← (h.load hl).2.2]

/-- The clawbacks of another earning stay as they are. -/
theorem ClawbacksWritten.other (hx : ClawbacksWritten ms L L') (h : EarningsKept L) {n : Nat}
    (hn : n ∉ ms) : clawbacks L' n = clawbacks L n ∧ standingClawbacks L' n = standingClawbacks L n := by
  have hcb : clawbacks L' n = clawbacks L n := by
    refine clawbacks_of_extends hx fun j hp i hr => ?_
    obtain ⟨m, hm, ⟨c, -, -, href, -⟩ | ⟨href, -⟩, -⟩ := hp
    · rw [href] at hr
      cases hr
    · rw [href] at hr
      cases hr
      exact hn hm
  refine ⟨hcb, ?_⟩
  unfold standingClawbacks clawbacksIn
  rw [hcb]
  refine sum_restated (clawbacks L n) (fun s => decide (s ≠ .reversed)) (fun s => decide (s ≠ .reversed))
    fun c hc => ⟨id, ?_, fun _ _ => rfl⟩
  obtain ⟨j, -, -, hjo, -⟩ := journalOf_isSome_of_clawback h.wellKept hc
  have hload := (hx.load_eq h (n := c) (fun m hm hcm => hn (clawback_of_one h.wellKept hc hcm ▸ hm))
    (by rw [hjo]; rfl)).1
  rw [hload]
  cases loadEarning L c <;> rfl

/-- What a run of one earning writes after others ran is what it would have written before. -/
theorem ClawbacksWritten.restate (hx : ClawbacksWritten ms L L') (h : EarningsKept L) {n : Nat}
    (hn : n ∉ ms) {j : LedgerJournal} (hj : ClawbackWritten L' n j) : ClawbackWritten L n j := by
  obtain ⟨hcb, -⟩ := hx.other h hn
  obtain ⟨⟨c, hc, hs, hrest⟩ | hpost, hon⟩ := hj
  · rw [hcb] at hc
    obtain ⟨j', -, -, hjo, -⟩ := journalOf_isSome_of_clawback h.wellKept hc
    have hstat := (hx.load_eq h (n := c) (fun m hm hcm => hn (clawback_of_one h.wellKept hc hcm ▸ hm))
      (by rw [hjo]; rfl)).2
    exact ⟨.inl ⟨c, hc, hstat ▸ hs, hrest⟩, hon⟩
  · rw [hcb] at hpost
    exact ⟨.inr hpost, hon⟩

theorem clawBackEach_spec {ids : List Nat} (hn : ids.Nodup) (h : EarningsKept L) (hc : ClawbacksKept L)
    (hids : ∀ n ∈ ids, ∃ j ∈ L, j.id = n ∧ j.ref.isClawback = false) {kept booked : Int}
    (hr : clawBackEach L ids kept booked = .ok L') :
    EarningsKept L' ∧ ClawbacksKept L' ∧ ClawbacksWritten ids L L' ∧
      ∀ n ∈ ids, ∀ e, loadEarning L n = some e → standingClawbacks L' n = -clawbackDue e kept booked := by
  induction ids generalizing L with
  | nil =>
    cases hr
    exact ⟨h, hc, Extends.refl _ _, by simp⟩
  | cons n ids ih =>
    unfold clawBackEach at hr
    rw [List.foldlM_cons] at hr
    obtain ⟨L₁, h₁, hr⟩ := bind_ok hr
    obtain ⟨hnot, hn⟩ := List.nodup_cons.1 hn
    -- what the run of the first earning did
    have hfirst : EarningsKept L₁ ∧ ClawbacksKept L₁ ∧ ClawbacksWritten [n] L L₁ ∧
        ∀ e, loadEarning L n = some e → standingClawbacks L₁ n = -clawbackDue e kept booked := by
      cases hl : loadEarning L n with
      | none =>
        rw [hl] at h₁
        cases h₁
        exact ⟨h, hc, Extends.refl _ _, by simp⟩
      | some e =>
        rw [hl] at h₁
        obtain ⟨hk, hck, hst, hw⟩ := settleClawback_standing h hc hl h₁
        refine ⟨hk, hck, hw.mono fun j hj => ⟨n, List.mem_singleton_self n, hj⟩, ?_⟩
        intro e' he'
        cases he'
        exact hst
    obtain ⟨hk₁, hc₁, hw₁, hst₁⟩ := hfirst
    have hplain : ∀ m ∈ n :: ids, ∀ m', m ∉ clawbacks L m' := by
      intro m hm m' hmem
      obtain ⟨j, hj, hid, hr⟩ := hids m hm
      obtain ⟨j', hj', hid', -, i, hr'⟩ := mem_clawbacks.1 hmem
      obtain rfl := h.wellKept.eq_of_id hj hj' (hid.trans hid'.symm)
      rw [hr'] at hr
      cases hr
    have hids₁ : ∀ m ∈ ids, ∃ j ∈ L₁, j.id = m ∧ j.ref.isClawback = false := by
      intro m hm
      obtain ⟨j, hj, hrest⟩ := hids m (List.mem_cons_of_mem _ hm)
      exact ⟨j, hw₁.mem hj, hrest⟩
    obtain ⟨hk', hc', hw', hst'⟩ := ih hn hk₁ hc₁ hids₁ hr
    refine ⟨hk', hc', ?_, ?_⟩
    · refine (hw₁.mono ?_).trans (hw'.mono ?_)
      · rintro j ⟨m, hm, hj⟩
        exact ⟨m, by simp_all, hj⟩
      · rintro j ⟨m, hm, hj⟩
        refine ⟨m, List.mem_cons_of_mem _ hm, hw₁.restate h ?_ hj⟩
        rintro hmn
        rw [List.mem_singleton.1 hmn] at hm
        exact hnot hm
    · intro m hm e he
      rcases List.mem_cons.1 hm with rfl | hm'
      · rw [(hw'.other hk₁ hnot).2]
        exact hst₁ e he
      · refine hst' m hm' e ?_
        have hsome : (journalOf L m).isSome := by
          obtain ⟨j, hj, hid, -⟩ := hids m hm
          rw [← hid, journalOf_eq h.wellKept hj]
          rfl
        rw [(hw₁.load_eq h (fun m' _ => hplain m hm m') hsome).1]
        exact he

/-- The earnings a clawback run looks at. -/
def accruedOn (on : LedgerJournal → Leg → Bool) (L : Ledger) : List Nat :=
  ((earningsOn on L).filter fun j => !j.ref.isClawback).map (·.id)

theorem nodup_accruedOn (h : WellKept L) (on : LedgerJournal → Leg → Bool) : (accruedOn on L).Nodup := by
  unfold accruedOn earningsOn
  rw [List.nodup_map_iff_inj_on ((h.nodup.filter _).filter _)]
  intro j hj j' hj' he
  exact h.eq_of_id (List.mem_of_mem_filter (List.mem_of_mem_filter hj))
    (List.mem_of_mem_filter (List.mem_of_mem_filter hj')) he

theorem mem_accruedOn {on : LedgerJournal → Leg → Bool} {n : Nat} (h : n ∈ accruedOn on L) :
    ∃ j ∈ earningsOn on L, j ∈ L ∧ j.id = n ∧ j.ref.isClawback = false := by
  obtain ⟨j, hj, hid⟩ := List.mem_map.1 h
  obtain ⟨hj, hr⟩ := List.mem_filter.1 hj
  exact ⟨j, hj, List.mem_of_mem_filter hj, hid, by simpa using hr⟩

/-- A clawback run keeps both invariants. -/
theorem clawBackOn_kept (h : EarningsKept L) (hc : ClawbacksKept L) {on : LedgerJournal → Leg → Bool}
    {amounts : Int × Int} (hr : clawBackOn L on amounts = .ok L') : EarningsKept L' ∧ ClawbacksKept L' ∧
      ClawbacksWritten (accruedOn on L) L L' := by
  unfold clawBackOn at hr
  simp only at hr
  split at hr
  · cases hr
    exact ⟨h, hc, Extends.refl _ _⟩
  · have hspec := clawBackEach_spec (nodup_accruedOn h.wellKept on) h hc (fun n hn => by
      obtain ⟨j, -, hj, hrest⟩ := mem_accruedOn hn
      exact ⟨j, hj, hrest⟩) hr
    exact ⟨hspec.1, hspec.2.1, hspec.2.2.1⟩

end

/-! ## The invariants over a run -/

theorem Advances.extends {L L' : Ledger} (ha : Advances L L') (h : EarningsKept L) :
    Extends (fun j => j.ref.isStaged = true) L L' := by
  induction ha with
  | refl => exact Extends.refl _ _
  | tail hs ha ih =>
    obtain ⟨n, ha⟩ := ha
    obtain ⟨r, i, legs, rfl, hr, -⟩ := ((h.advances hs).advance ha).written
    exact ih.trans (extends_write _ r i legs fun _ => hr)

theorem ClawbacksKept.of_advances {L L' : Ledger} (hc : ClawbacksKept L) (ha : Advances L L')
    (h : EarningsKept L) : ClawbacksKept L' :=
  hc.of_extends (ha.extends h) fun j hj m i hr => by
    rw [hr] at hj
    cases hj

/-- What a step keeps. -/
theorem earning_step {L L' : Ledger} {a : EarningAction} (h : EarningsKept L ∧ ClawbacksKept L)
    (hs : EarningStep L a L') : EarningsKept L' ∧ ClawbacksKept L' := by
  obtain ⟨hk, hc⟩ := h
  cases hs with
  | move hm =>
    have ha := hk.moveMany hm
    exact ⟨hk.advances ha, hc.of_advances ha hk⟩
  | reverse hj he hr =>
    have ha := reverseEarning_advances hj he hr
    exact ⟨hk.advances ha, hc.of_advances ha hk⟩
  | cancelTip ht =>
    have ha := hk.cancelReturnedTip ht
    exact ⟨hk.advances ha, hc.of_advances ha hk⟩
  | clawBack hb =>
    have hspec := clawBackOn_kept hk hc hb
    exact ⟨hspec.1, hspec.2.1⟩
  | clawBackPackage hb =>
    have hspec := clawBackOn_kept hk hc hb
    exact ⟨hspec.1, hspec.2.1⟩
  | post hq hr hp =>
    refine ⟨hk.post hq hp, ?_⟩
    obtain ⟨rfl, -⟩ := post_ok hp
    refine hc.of_extends (extends_write (P := fun j => j.ref.isClawback = false) L _ _ _ fun _ => hr) ?_
    intro j hj m i href
    rw [href] at hj
    cases hj

theorem earningsKept_nil : EarningsKept [] ∧ ClawbacksKept [] := by
  refine ⟨⟨wellKept_nil, ?_, ?_, ?_, ?_, ?_⟩, ⟨?_, ?_, ?_⟩⟩ <;> simp

theorem earning_run {L : Ledger} {as : List EarningAction} (hrun : Run EarningStep [] as L) :
    EarningsKept L ∧ ClawbacksKept L :=
  hrun.invariant (I := fun L => EarningsKept L ∧ ClawbacksKept L) (fun _ _ _ => earning_step) earningsKept_nil

/-! ## The stages agree with the money -/

/-- The accounts an earning of a member goes through. -/
def pendingKey (staffId : Id) : AccountKey := ⟨.staff staffId, .payable, .pending⟩

def approvedKey (staffId : Id) : AccountKey := ⟨.staff staffId, .payable, .approved⟩

def bankKey : AccountKey := ⟨.business, .bank, .plain⟩

/-- What the earning's own journals owe on one account. -/
def owedOn (L : Ledger) (n : Nat) (key : AccountKey) : Int := -ownOn L n fun k => decide (k = key)

/-- The amount is where the status says it is, and an undo has one journal to undo. -/
structure StageMoney (L : Ledger) (n : Nat) (staffId : Id) (cents : Int) : Prop where
  pending : owedOn L n (pendingKey staffId) = cents ↔ earningStatus L n = .pending
  approved : owedOn L n (approvedKey staffId) = cents ↔ earningStatus L n = .approved
  paid : owedOn L n bankKey = cents ↔ earningStatus L n = .paid
  reversed : earningStatus L n = .reversed → owedOn L n (pendingKey staffId) = 0 ∧
    owedOn L n (approvedKey staffId) = 0 ∧ owedOn L n bankKey = 0
  undo : ∀ move : Move, move.isUndo = true → earningStatus L n ∈ move.from →
    ∃ ref j, standing L n move.stage = [ref] ∧ L.find ref = some j

section
variable {L : Ledger} {n : Nat} {staffId : Id} {cents : Int} {p : Progress}

theorem Stages.owed (h : Stages L n staffId cents p) :
    owedOn L n (pendingKey staffId) = (if p.reversed then 0 else cents) - live p.approvals * cents ∧
      owedOn L n (approvedKey staffId) = (live p.approvals - live p.payments) * cents ∧
      owedOn L n bankKey = live p.payments * cents := by
  unfold owedOn pendingKey approvedKey bankKey
  refine ⟨?_, ?_, ?_⟩
  · rw [h.money]
    simp only [earningLegs, stageLegs, keyed_cons, keyed_nil, leg_key, legOf_key, leg_cents, legOf_cents]
    simp
    split <;> ring
  · rw [h.money]
    simp only [earningLegs, stageLegs, keyed_cons, keyed_nil, leg_key, legOf_key, leg_cents, legOf_cents]
    simp
    ring
  · rw [h.money]
    simp only [earningLegs, stageLegs, keyed_cons, keyed_nil, leg_key, legOf_key, leg_cents, legOf_cents]
    simp

/-- The counts put the whole amount on the account of the status and nothing on the others. -/
theorem Stages.owed_by_status (h : Stages L n staffId cents p) :
    owedOn L n (pendingKey staffId) = (if earningStatus L n = .pending then cents else 0) ∧
      owedOn L n (approvedKey staffId) = (if earningStatus L n = .approved then cents else 0) ∧
      owedOn L n bankKey = if earningStatus L n = .paid then cents else 0 := by
  obtain ⟨hpending, happroved, hbank⟩ := h.owed
  rw [hpending, happroved, hbank, h.status]
  unfold Progress.status live
  by_cases hr : p.reversed = true
  · have ha := h.untouched hr
    have hp : ¬p.payments % 2 = 1 := fun hp => by
      have := h.paid hp
      omega
    simp [hr, ha, hp]
  · by_cases hp : p.payments % 2 = 1
    · simp [hr, hp, h.paid hp]
    · by_cases ha : p.approvals % 2 = 1
      · simp [hr, hp, ha]
      · simp [hr, hp, ha]

theorem EarningsKept.stageMoney (h : EarningsKept L) (hp : Stages L n staffId cents p) (hne : cents ≠ 0) :
    StageMoney L n staffId cents := by
  obtain ⟨hpending, happroved, hbank⟩ := hp.owed_by_status
  refine ⟨?_, ?_, ?_, ?_, ?_⟩
  · rw [hpending]
    split <;> simp_all [hne.symm]
  · rw [happroved]
    split <;> simp_all [hne.symm]
  · rw [hbank]
    split <;> simp_all [hne.symm]
  · intro hs
    rw [hpending, happroved, hbank, hs]
    simp
  · intro move hu hs
    have hstart : p.status = move.starts := by
      rw [hp.status] at hs
      cases move with
      | unapprove => exact List.mem_singleton.1 hs
      | unpay => exact List.mem_singleton.1 hs
      | _ => cases hu
    have hodd := (Move.counts hstart).2.1.2 hu
    obtain ⟨j, -, hfind, -⟩ := hp.find_move h hodd
    refine ⟨_, j, ?_, hfind⟩
    rw [hp.standing, if_pos hodd]

end
/-- **The stages agree with the money**, whatever moves and reversals came before; no command
ever fails on an undo that does not find exactly one journal. -/
theorem stages_agree {L : Ledger} {as : List EarningAction} (hrun : Run EarningStep [] as L) :
    (∀ j ∈ L, j.info.event.isEarning = true → ∃ staffId cents, EarningLegs staffId cents j.legs ∧
      cents ≠ 0 ∧ StageMoney L j.id staffId cents) ∧
    ∀ ids move run, moveMany L ids move run ≠ .error .indeterminate := by
  obtain ⟨hk, -⟩ := earning_run hrun
  refine ⟨?_, hk.moveMany_determinate⟩
  intro j hj he
  obtain ⟨staffId, cents, p, hlegs, hne, hp⟩ := hk.earnings j hj he
  exact ⟨staffId, cents, hlegs, hne, hk.stageMoney hp hne⟩

/-- An earning of 100.00. -/
def visitEarning : Posting where
  event := .earning
  ref := .earningAdjustment 0
  legs := [leg .business .staffCost 10000, legOf (.staff "sta_1") .payable (-10000) .pending]
  subject := some (.booking "bkg_1")

def earned : Ledger := (post [] visitEarning).toOption.get (by decide)

def earned₁ : Ledger := (moveMany earned [0] .pay 1).toOption.get (by decide)

def earned₂ : Ledger := (moveMany earned₁ [0] .unpay 0).toOption.get (by decide)

def earned₃ : Ledger := (moveMany earned₂ [0] .pay 2).toOption.get (by decide)

/-- Paid, undone and paid again: the second payment is the one that stands. -/
theorem earned_agrees : StageMoney earned₃ 0 "sta_1" 10000 := by
  have hrun : Run EarningStep [] [.post visitEarning, .move [0] .pay 1, .move [0] .unpay 0, .move [0] .pay 2]
      earned₃ := by
    refine .cons (.post ⟨rfl, ?_, fun _ => ⟨rfl, "sta_1", 10000, none, rfl⟩⟩ rfl (eq_ok_get (by decide)))
      (.cons (.move (eq_ok_get (by decide))) (.cons (.move (eq_ok_get (by decide)))
        (.cons (.move (eq_ok_get (by decide))) .nil)))
    intro k hk
    cases hk
  have hj : (⟨0, .earningAdjustment 0, visitEarning.info, visitEarning.written⟩ : LedgerJournal) ∈ earned₃ := by
    decide
  obtain ⟨s, a, hlegs, -, hmoney⟩ := (stages_agree hrun).1 _ hj rfl
  obtain ⟨rfl, rfl⟩ := hlegs.unique (⟨some (.booking "bkg_1"), by decide⟩ : EarningLegs "sta_1" 10000 _)
  exact hmoney

end ClientBridge
