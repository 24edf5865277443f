import ClientBridge.Earnings.StageInvariant

/-!
# What one clawback run does

`settleClawback` reverses the pending clawbacks of an earning and posts one for what is still
due.  Whatever was approved, paid or reversed before, the clawbacks that stand afterwards add
up to the refunded share, and nothing else was written (`settleClawback_standing`).
-/

namespace ClientBridge

open Bookkeeping Runs

/-! ## The invariant of the clawback journals -/

/-- Clawbacks are numbered, and booked against what their earning is, for the same source. -/
structure ClawbacksKept (L : Ledger) : Prop where
  counted : ∀ j ∈ L, ∀ n i, j.ref = .earningClawback n i → i < (clawbacks L n).length
  event : ∀ j ∈ L, ∀ n i, j.ref = .earningClawback n i → j.info.event = .earning
  alike : ∀ j ∈ L, ∀ n i, j.ref = .earningClawback n i → ∃ j₀ ∈ L, j₀.id = n ∧
    j₀.info.event.isEarning = true ∧ j₀.info.source = j.info.source ∧ ∃ t s s' a a',
      j₀.legs = (earningLegs s a).map (fun l => { l with tag := t }) ∧
      j.legs = (earningLegs s' a').map (fun l => { l with tag := t })

/-- The clawbacks of an earning that were not reversed, added up. -/
def standingClawbacks (L : Ledger) (n : Nat) : Int :=
  ((clawbacksIn L n fun s => decide (s ≠ .reversed)).map (·.amountCents)).sum

/-! ## Reading a ledger that grew -/

section
variable {L L' : Ledger} {n : Nat}

theorem journalOf_append {j : LedgerJournal} (h : journalOf L n = some j) (C : Ledger) :
    journalOf (L ++ C) n = some j := by
  unfold journalOf at h ⊢
  rw [List.find?_append, h, Option.some_or]

theorem journalOf_eq (h : WellKept L) {j : LedgerJournal} (hj : j ∈ L) : journalOf L j.id = some j := by
  cases hf : journalOf L j.id with
  | none =>
    have hne := List.find?_eq_none.1 hf j hj
    simp at hne
  | some j' =>
    have hid : j'.id = j.id := by simpa using List.find?_some hf
    rw [h.eq_of_id (List.mem_of_find?_eq_some hf) hj hid]

/-- An earning of a ledger that grew is what it was, but for its status. -/
theorem loadEarning_append {C : Ledger} (h : (journalOf L n).isSome) :
    loadEarning (L ++ C) n =
      (loadEarning L n).map fun e => { e with status := earningStatus (L ++ C) n } := by
  obtain ⟨j, hj⟩ := Option.isSome_iff_exists.1 h
  unfold loadEarning
  rw [journalOf_append hj, hj]
  simp only
  split
  · rw [Option.map_map]
    rfl
  · rfl

theorem clawbacks_append (L C : Ledger) (n : Nat) : clawbacks (L ++ C) n = clawbacks L n ++ clawbacks C n := by
  simp [clawbacks]

theorem mem_clawbacks {c : Nat} : c ∈ clawbacks L n ↔
    ∃ j ∈ L, j.id = c ∧ j.info.event = .earning ∧ ∃ i, j.ref = .earningClawback n i := by
  simp only [clawbacks, List.mem_map, List.mem_filter, Bool.and_eq_true, decide_eq_true_eq]
  constructor
  · rintro ⟨j, ⟨hj, he, hr⟩, rfl⟩
    refine ⟨j, hj, rfl, he, ?_⟩
    unfold isClawbackOf at hr
    split at hr
    · next m i href =>
      obtain rfl : m = n := of_decide_eq_true hr
      exact ⟨i, href⟩
    · cases hr
  · rintro ⟨j, hj, rfl, he, i, hr⟩
    exact ⟨j, ⟨hj, he, by simp [isClawbackOf, hr]⟩, rfl⟩

theorem nodup_clawbacks (h : WellKept L) (n : Nat) : (clawbacks L n).Nodup := by
  unfold clawbacks
  rw [List.nodup_map_iff_inj_on (h.nodup.filter _)]
  intro j hj j' hj' he
  exact h.eq_of_id (List.mem_of_mem_filter hj) (List.mem_of_mem_filter hj') he

/-- The clawbacks that can be loaded, one for each. -/
theorem mem_clawbacksIn {p : EarningStatus → Bool} {e : Earning} :
    e ∈ clawbacksIn L n p ↔ (∃ c ∈ clawbacks L n, loadEarning L c = some e) ∧ p e.status = true := by
  simp [clawbacksIn, List.mem_filter, List.mem_filterMap]

theorem sum_clawbacksIn_not (L : Ledger) (n : Nat) :
    standingClawbacks L n = ((clawbacksIn L n fun s => decide (s = .pending)).map (·.amountCents)).sum +
      ((clawbacksIn L n fun s => decide (s ≠ .pending ∧ s ≠ .reversed)).map (·.amountCents)).sum := by
  unfold standingClawbacks clawbacksIn
  induction (clawbacks L n).filterMap (loadEarning L) with
  | nil => rfl
  | cons e es ih =>
    simp only [List.filter_cons] at ih ⊢
    cases hs : e.status <;> simp at ih ⊢ <;> omega

end

/-! ## Reversing the pending clawbacks -/

/-- A journal on staff costs and payables alone. -/
def OnEarnings (j : LedgerJournal) : Prop :=
  ∀ e ∈ j.legs, e.key.category = .staffCost ∨ e.key.category = .payable

theorem EarningLegs.onEarnings {s : Id} {a : Int} {legs : List Leg} (h : EarningLegs s a legs) :
    ∀ e ∈ legs, e.key.category = .staffCost ∨ e.key.category = .payable := by
  obtain ⟨t, rfl⟩ := h
  simp [earningLegs]

/-- Only reversals of these earnings were written. -/
def ReversedOnly (ids : List Nat) (L L' : Ledger) : Prop :=
  Extends (fun j => ∃ id ∈ ids, j.ref = .earningReversal id ∧ j.info.event = .reversal ∧
    j.info.source = some (.journal id) ∧ OnEarnings j) L L'

theorem EarningsKept.reverseAll {L L' : Ledger} (h : EarningsKept L) {ids : List Nat} (hn : ids.Nodup)
    (hp : ∀ id ∈ ids, earningStatus L id = .pending ∧ ∃ j ∈ L, j.id = id ∧ j.info.event.isEarning = true)
    (hr : reverseAll L ids = .ok L') :
    EarningsKept L' ∧ ReversedOnly ids L L' ∧ ∀ id ∈ ids, earningStatus L' id = .reversed := by
  induction ids generalizing L with
  | nil =>
    cases hr
    exact ⟨h, Extends.refl _ _, by simp⟩
  | cons id ids ih =>
    unfold ClientBridge.reverseAll at hr
    rw [List.foldlM_cons] at hr
    obtain ⟨L₁, h₁, hr⟩ := bind_ok hr
    obtain ⟨hnot, hn⟩ := List.nodup_cons.1 hn
    obtain ⟨hs, j, hj, hid, he⟩ := hp id List.mem_cons_self
    rw [← hid, journalOf_eq h.wellKept hj, hid] at h₁
    replace h₁ : reversePlain L j (.earningReversal id) = .ok L₁ := h₁
    obtain ⟨hadv, hstatus⟩ := h.reversed hj hid he hs h₁
    have hx : ReversedOnly (id :: ids) L L₁ := by
      rw [reversePlain, reverse_eq (h.wellKept.balanced j hj)] at h₁
      cases h₁
      refine extends_write L _ _ _ fun _ => ⟨id, List.mem_cons_self, rfl, rfl, by rw [hid]; rfl, ?_⟩
      intro e hm
      obtain ⟨s, a, p, hlegs, -⟩ := h.earnings j hj he
      obtain ⟨e', hm', rfl⟩ := List.mem_map.1 (List.mem_of_mem_filter hm)
      exact hlegs.onEarnings e' hm'
    have hrest : ∀ id' ∈ ids, earningStatus L₁ id' = .pending ∧
        ∃ j ∈ L₁, j.id = id' ∧ j.info.event.isEarning = true := by
      intro id' hid'
      obtain ⟨hs', j', hj', hrest'⟩ := hp id' (List.mem_cons_of_mem _ hid')
      have hne : id' ≠ id := fun e => hnot (e ▸ hid')
      refine ⟨?_, j', hadv.mem hj', hrest'⟩
      rw [earningStatus, hadv.stageRefs_eq hne]
      exact hs'
    obtain ⟨hkept, hx', hall⟩ := ih hadv.kept hn hrest hr
    refine ⟨hkept, hx.trans (hx'.mono ?_), ?_⟩
    · rintro j ⟨id', hid', hrest'⟩
      exact ⟨id', List.mem_cons_of_mem _ hid', hrest'⟩
    · intro id' hid'
      rcases List.mem_cons.1 hid' with rfl | hid'
      · have hsame : stageRefs L' id' = stageRefs L₁ id' := by
          obtain ⟨C, rfl, hC⟩ := hx'
          rw [stageRefs_append]
          have hnil : stageRefs C id' = [] := by
            rw [stageRefs, List.map_eq_nil_iff, List.filter_eq_nil_iff]
            intro j' hj' hq
            obtain ⟨id'', hid'', -, -, hs'', -⟩ := hC j' hj'
            rw [Bool.and_eq_true, hs''] at hq
            have heq := of_decide_eq_true hq.1
            simp only [Option.some.injEq, Source.journal.injEq] at heq
            exact hnot (heq ▸ hid'')
          rw [hnil, List.append_nil]
        rw [earningStatus, hsame]
        exact hstatus
      · exact hall id' hid'

/-! ## Settling the clawbacks of one earning -/

/-- What a clawback run of one earning may write: reversals of its pending clawbacks, and one
clawback under the next number. -/
def ClawbackWritten (L : Ledger) (n : Nat) (j : LedgerJournal) : Prop :=
  ((∃ c ∈ clawbacks L n, earningStatus L c = .pending ∧ j.ref = .earningReversal c ∧
    j.info.event = .reversal ∧ j.info.source = some (.journal c)) ∨
  (j.ref = .earningClawback n (clawbacks L n).length ∧ j.info.event = .earning)) ∧ OnEarnings j

section
variable {L L' : Ledger} {n : Nat}

/-- No stage journal of an earning was written. -/
theorem stageRefs_of_extends {P : LedgerJournal → Prop} (hx : Extends P L L') {c : Nat}
    (hP : ∀ j, P j → j.info.source ≠ some (.journal c) ∨ j.info.event.isStage = false) :
    stageRefs L' c = stageRefs L c := by
  obtain ⟨C, rfl, hC⟩ := hx
  rw [stageRefs_append]
  have hnil : stageRefs C c = [] := by
    rw [stageRefs, List.map_eq_nil_iff, List.filter_eq_nil_iff]
    intro j hj hq
    rw [Bool.and_eq_true] at hq
    rcases hP j (hC j hj) with hs | he
    · exact hs (of_decide_eq_true hq.1)
    · rw [he] at hq
      cases hq.2
  rw [hnil, List.append_nil]

theorem clawbacks_of_extends {P : LedgerJournal → Prop} (hx : Extends P L L')
    (hP : ∀ j, P j → ∀ i, j.ref ≠ .earningClawback n i) : clawbacks L' n = clawbacks L n := by
  obtain ⟨C, rfl, hC⟩ := hx
  rw [clawbacks_append]
  have hnil : clawbacks C n = [] := by
    rw [List.eq_nil_iff_forall_not_mem]
    intro c hc
    obtain ⟨j, hj, -, -, i, hr⟩ := mem_clawbacks.1 hc
    exact hP j (hC j hj) i hr
  rw [hnil, List.append_nil]

/-- Each clawback was loaded as before, but for its status. -/
theorem sum_restated (cs : List Nat) (p p' : EarningStatus → Bool)
    (h : ∀ c ∈ cs, ∃ f : EarningStatus → EarningStatus,
      loadEarning L' c = (loadEarning L c).map (fun e => { e with status := f e.status }) ∧
      ∀ e, loadEarning L c = some e → p' (f e.status) = p e.status) :
    ((((cs.filterMap (loadEarning L')).filter fun e => p' e.status).map (·.amountCents)).sum : Int) =
      (((cs.filterMap (loadEarning L)).filter fun e => p e.status).map (·.amountCents)).sum := by
  induction cs with
  | nil => rfl
  | cons c cs ih =>
    have ih := ih fun c' hc' => h c' (List.mem_cons_of_mem _ hc')
    obtain ⟨f, hf, hp⟩ := h c List.mem_cons_self
    cases hl : loadEarning L c with
    | none =>
      rw [hl, Option.map_none] at hf
      rw [List.filterMap_cons_none hf, List.filterMap_cons_none hl, ih]
    | some e =>
      rw [hl, Option.map_some] at hf
      rw [List.filterMap_cons_some hf, List.filterMap_cons_some hl, List.filter_cons, List.filter_cons]
      simp only [hp e hl]
      split
      · rw [List.map_cons, List.sum_cons, List.map_cons, List.sum_cons, ih]
      · exact ih

theorem journalOf_isSome_of_clawback (h : WellKept L) {c : Nat} (hc : c ∈ clawbacks L n) :
    ∃ j ∈ L, j.id = c ∧ journalOf L c = some j ∧ j.info.event = .earning := by
  obtain ⟨j, hj, rfl, he, -⟩ := mem_clawbacks.1 hc
  exact ⟨j, hj, rfl, journalOf_eq h hj, he⟩

theorem EarningsKept.mem_pendingIds (h : EarningsKept L) {c : Nat} :
    c ∈ (clawbacksIn L n fun s => decide (s = .pending)).map (·.id) ↔
      c ∈ clawbacks L n ∧ earningStatus L c = .pending := by
  simp only [List.mem_map, mem_clawbacksIn, decide_eq_true_eq]
  constructor
  · rintro ⟨e', ⟨⟨c', hc', hl'⟩, hp'⟩, rfl⟩
    obtain ⟨hid', -, hst'⟩ := h.load hl'
    rw [hid']
    exact ⟨hc', hst' ▸ hp'⟩
  · rintro ⟨hc', hp'⟩
    obtain ⟨j, hj, hidj, hjo, hev⟩ := journalOf_isSome_of_clawback h.wellKept hc'
    have hearn : j.info.event.isEarning = true := by rw [hev]; rfl
    obtain ⟨s, a, p, ⟨t, ht⟩, -, -⟩ := h.earnings j hj hearn
    have hsome : ∃ e', loadEarning L c = some e' := by
      unfold loadEarning payableLeg
      rw [hjo]
      simp only [hearn, if_true, ht]
      exact ⟨_, rfl⟩
    obtain ⟨e', he'⟩ := hsome
    obtain ⟨hid', -, hst'⟩ := h.load he'
    exact ⟨e', ⟨⟨c, hc', he'⟩, hst'.trans hp'⟩, hid'⟩

theorem EarningsKept.nodup_pendingIds (h : EarningsKept L) (n : Nat) :
    ((clawbacksIn L n fun s => decide (s = .pending)).map (·.id)).Nodup := by
  have hmap : ((clawbacks L n).filterMap (loadEarning L)).map (·.id) =
      (clawbacks L n).filter fun c => (loadEarning L c).isSome := by
    rw [List.map_filterMap]
    induction clawbacks L n with
    | nil => rfl
    | cons c cs ih =>
      cases hlc : loadEarning L c with
      | none => simp [hlc, ih]
      | some e' => simp [hlc, ih, (h.load hlc).1]
  have hsub : ((clawbacksIn L n fun s => decide (s = .pending)).map (·.id)).Sublist
      (((clawbacks L n).filterMap (loadEarning L)).map (·.id)) := List.filter_sublist.map _
  rw [hmap] at hsub
  exact (nodup_clawbacks h.wellKept n).sublist (hsub.trans List.filter_sublist)

/-- Reversing the pending clawbacks leaves the settled ones. -/
theorem standing_reversed (h : EarningsKept L) {ids : List Nat} (hx : ReversedOnly ids L L')
    (hids : ∀ c ∈ clawbacks L n, c ∈ ids ↔ earningStatus L c = .pending)
    (hall : ∀ c ∈ ids, earningStatus L' c = .reversed) :
    clawbacks L' n = clawbacks L n ∧ standingClawbacks L' n =
      ((clawbacksIn L n fun s => decide (s ≠ .pending ∧ s ≠ .reversed)).map (·.amountCents)).sum := by
  have hsame : clawbacks L' n = clawbacks L n := clawbacks_of_extends hx fun j hj i hr => by
    obtain ⟨id, -, href, -⟩ := hj
    rw [href] at hr
    cases hr
  refine ⟨hsame, ?_⟩
  unfold standingClawbacks clawbacksIn
  rw [hsame]
  refine sum_restated (clawbacks L n) (fun s => decide (s ≠ .pending ∧ s ≠ .reversed))
    (fun s => decide (s ≠ .reversed)) fun c hc => ?_
  obtain ⟨j, hj, hid, hjo, -⟩ := journalOf_isSome_of_clawback h.wellKept hc
  have hload : loadEarning L' c = (loadEarning L c).map fun e => { e with status := earningStatus L' c } := by
    obtain ⟨C, rfl, -⟩ := hx
    exact loadEarning_append (by rw [hjo]; rfl)
  refine ⟨fun _ => earningStatus L' c, hload, fun e he => ?_⟩
  have hs := (h.load he).2.2
  by_cases hp : earningStatus L c = .pending
  · rw [hall c ((hids c hc).2 hp), hs, hp]
    rfl
  · have hnot : c ∉ ids := fun hin => hp ((hids c hc).1 hin)
    have hrefs : stageRefs L' c = stageRefs L c := stageRefs_of_extends hx fun j' hj' => by
      obtain ⟨id, hid', -, -, hsrc, -⟩ := hj'
      left
      rw [hsrc]
      intro heq
      obtain rfl : id = c := by simpa using heq
      exact hnot hid'
    have hstat : earningStatus L' c = earningStatus L c := by rw [earningStatus, hrefs, earningStatus]
    rw [hstat, hs]
    simp [hp]

theorem ClawbacksKept.of_extends (h : ClawbacksKept L) {P : LedgerJournal → Prop} (hx : Extends P L L')
    (hP : ∀ j, P j → ∀ m i, j.ref ≠ .earningClawback m i) : ClawbacksKept L' := by
  have hold : ∀ j ∈ L', ∀ m i, j.ref = .earningClawback m i → j ∈ L := by
    intro j hj m i hr
    exact (hx.mem_or hj).resolve_right fun hp => hP j hp m i hr
  refine ⟨?_, ?_, ?_⟩
  · intro j hj m i hr
    rw [clawbacks_of_extends hx fun j' hp => hP j' hp m]
    exact h.counted j (hold j hj m i hr) m i hr
  · intro j hj m i hr
    exact h.event j (hold j hj m i hr) m i hr
  · intro j hj m i hr
    obtain ⟨j₀, hj₀, hrest⟩ := h.alike j (hold j hj m i hr) m i hr
    exact ⟨j₀, hx.mem hj₀, hrest⟩

theorem ClawbacksKept.of_posted (h : ClawbacksKept L) {j₀ : LedgerJournal} (hj₀ : j₀ ∈ L) {q : Posting}
    {s s' : Id} {a a' : Int} {t : Option Subject}
    (hl₀ : j₀.legs = (earningLegs s a).map fun l => { l with tag := t })
    (he₀ : j₀.info.event.isEarning = true)
    (href : q.ref = .earningClawback j₀.id (clawbacks L j₀.id).length) (hev : q.event = .earning)
    (hsrc : q.source = j₀.info.source)
    (hl : q.written = (earningLegs s' a').map fun l => { l with tag := t }) :
    ClawbacksKept (L.write q.ref q.info q.written) := by
  have hgrow : ∀ m, (clawbacks L m).length ≤ (clawbacks (L.write q.ref q.info q.written) m).length := by
    intro m
    rcases L.write_cases q.ref q.info q.written with ⟨-, he⟩ | ⟨-, -, he⟩ <;> rw [he]
    rw [clawbacks_append, List.length_append]
    omega
  refine ⟨?_, ?_, ?_⟩
  · intro j hj m i hr
    rcases Book.mem_write hj with hj | ⟨hnew, hne, rfl⟩
    · exact lt_of_lt_of_le (h.counted j hj m i hr) (hgrow m)
    · have hr' : q.ref = .earningClawback m i := hr
      rw [href] at hr'
      cases hr'
      rw [Book.write_of_new hnew q.info hne, clawbacks_append, List.length_append]
      simp [clawbacks, Posting.info, hev, href, isClawbackOf]
  · intro j hj m i hr
    rcases Book.mem_write hj with hj | ⟨-, -, rfl⟩
    · exact h.event j hj m i hr
    · exact hev
  · intro j hj m i hr
    rcases Book.mem_write hj with hj | ⟨-, -, rfl⟩
    · obtain ⟨j₁, hj₁, hrest⟩ := h.alike j hj m i hr
      exact ⟨j₁, Book.mem_write_of_mem hj₁ _ _ _, hrest⟩
    · have hr' : q.ref = .earningClawback m i := hr
      rw [href] at hr'
      cases hr'
      exact ⟨j₀, Book.mem_write_of_mem hj₀ _ _ _, rfl, he₀, hsrc.symm, t, s, s', a, a', hl₀, hl⟩

/-- The new clawback counts in full. -/
theorem standing_posted (h : EarningsKept L) {e : Earning} {need : Int} {q : Posting}
    (hkept : EarningsKept (L.write q.ref q.info q.written)) (hnew : L.has q.ref = false)
    (href : q.ref = .earningClawback n (clawbacks L n).length) (hev : q.event = .earning)
    (hlegs : EarningLegs e.staffId need q.written) :
    standingClawbacks (L.write q.ref q.info q.written) n = standingClawbacks L n + need ∧
      clawbacks (L.write q.ref q.info q.written) n = clawbacks L n ++ [L.length] := by
  obtain ⟨t, ht⟩ := id hlegs
  have hwritten : q.written ≠ [] := by
    rw [ht]
    simp [earningLegs]
  have happend := Book.write_of_new hnew q.info hwritten
  have hcb : clawbacks (L.write q.ref q.info q.written) n = clawbacks L n ++ [L.length] := by
    rw [happend, clawbacks_append]
    congr 1
    simp [clawbacks, Posting.info, hev, href, isClawbackOf]
  have hload : loadEarning (L.write q.ref q.info q.written) L.length =
      some ⟨L.length, e.staffId, t, need, .pending, .earning, q.metadata.basis⟩ := by
    have hj : (⟨L.length, q.ref, q.info, q.written⟩ : LedgerJournal) ∈ L.write q.ref q.info q.written := by
      rw [happend]
      simp
    have hjo := journalOf_eq hkept.wellKept hj
    have hst : earningStatus (L.write q.ref q.info q.written) L.length = .pending := by
      have hfresh := h.fresh (i := q.info) hnew (by show q.event.isEarning = true; rw [hev]; rfl)
        (by rw [href]; simp) hlegs
      exact hfresh.status
    have hpay : payableLeg ⟨L.length, q.ref, q.info, q.written⟩ =
        some (e.staffId, { legOf (.staff e.staffId) .payable (-need) .pending with tag := t }) := by
      unfold payableLeg
      simp only
      rw [ht]
      rfl
    unfold loadEarning
    rw [hjo]
    simp only
    have hearn : q.info.event.isEarning = true := by show q.event.isEarning = true; rw [hev]; rfl
    rw [if_pos hearn, hpay, Option.map_some, hst]
    simp [legOf, Posting.info, hev]
  refine ⟨?_, hcb⟩
  unfold standingClawbacks clawbacksIn
  rw [hcb, List.filterMap_append, List.filter_append, List.map_append, List.sum_append]
  congr 1
  · refine sum_restated (clawbacks L n) (fun s => decide (s ≠ .reversed)) (fun s => decide (s ≠ .reversed))
      fun c hc => ?_
    obtain ⟨j, hj, hid, hjo, -⟩ := journalOf_isSome_of_clawback h.wellKept hc
    have hsome : (journalOf L c).isSome := by rw [hjo]; rfl
    have hrefs : stageRefs (L.write q.ref q.info q.written) c = stageRefs L c :=
      stageRefs_write_of_ne (.inr (by show q.event.isStage = false; rw [hev]; rfl))
    refine ⟨fun _ => earningStatus (L.write q.ref q.info q.written) c, ?_, fun e' he' => ?_⟩
    · rw [happend]
      exact loadEarning_append hsome
    · rw [(h.load he').2.2, earningStatus, hrefs, earningStatus]
  · rw [List.filterMap_cons_some hload]
    simp

/-- **The clawbacks that stand are the share that was given back.** -/
theorem settleClawback_standing (h : EarningsKept L) (hc : ClawbacksKept L) {e : Earning}
    (hl : loadEarning L n = some e) {kept booked : Int} (hs : settleClawback L e kept booked = .ok L') :
    EarningsKept L' ∧ ClawbacksKept L' ∧ standingClawbacks L' n = -clawbackDue e kept booked ∧
      Extends (ClawbackWritten L n) L L' := by
  obtain ⟨j₀, hj₀, hjo₀, hid₀, he₀, hne₀, hlegs₀, hid, -⟩ := h.load_legs hl
  subst hid
  have hsplit := sum_clawbacksIn_not L e.id
  unfold settleClawback at hs
  simp only at hs
  set need := -clawbackDue e kept booked -
    ((clawbacksIn L e.id fun s => decide (s ≠ .pending ∧ s ≠ .reversed)).map (·.amountCents)).sum with hneed
  split at hs
  · next hsame =>
    cases hs
    refine ⟨h, hc, ?_, Extends.refl _ _⟩
    rw [hsplit, hsame]
    omega
  · obtain ⟨L₁, h₁, hs⟩ := bind_ok hs
    have mem_pending := fun {c} => h.mem_pendingIds (n := e.id) (c := c)
    obtain ⟨hkept₁, hx₁, hrev₁⟩ := h.reverseAll (h.nodup_pendingIds e.id) (fun c hc' => by
      obtain ⟨hc', hp'⟩ := mem_pending.1 hc'
      obtain ⟨j, hj, hidj, -, hev⟩ := journalOf_isSome_of_clawback h.wellKept hc'
      exact ⟨hp', j, hj, hidj, by rw [hev]; rfl⟩) h₁
    obtain ⟨hcb₁, hstand₁⟩ := standing_reversed h hx₁ (fun c hc' => by
      rw [mem_pending]
      exact and_iff_right hc') hrev₁
    have hwritten₁ : Extends (ClawbackWritten L e.id) L L₁ := hx₁.mono fun j hj => by
      obtain ⟨c, hc', hr', he', hs', hon⟩ := hj
      obtain ⟨hmem, hp'⟩ := mem_pending.1 hc'
      exact ⟨.inl ⟨c, hmem, hp', hr', he', hs'⟩, hon⟩
    have hclaws₁ : ClawbacksKept L₁ := hc.of_extends hx₁ fun j hj m i hr => by
      obtain ⟨c, -, href, -⟩ := hj
      rw [href] at hr
      cases hr
    split at hs
    · next hzero =>
      cases hs
      refine ⟨hkept₁, hclaws₁, ?_, hwritten₁⟩
      rw [hstand₁]
      omega
    · next hnz =>
      have hwritten : (clawbackPosting L e need).written =
          (earningLegs e.staffId need).map fun l => { l with tag := e.subject } := by
        rw [Posting.written]
        simp [clawbackPosting, earningLegs, nonzero, leg, legOf, hnz]
      have hlegs : EarningLegs e.staffId need (clawbackPosting L e need).written := ⟨_, hwritten⟩
      have hforeign : Foreign L₁ (clawbackPosting L e need) := by
        refine ⟨rfl, fun k hk => ?_, fun _ => ⟨rfl, e.staffId, need, none, rfl⟩⟩
        have hsrc : j₀.info.source = some (.journal k) := by
          have hk' : (journalOf L e.id).bind (·.info.source) = some (.journal k) := hk
          rwa [hjo₀] at hk'
        have hlt := h.sources j₀ hj₀ k hsrc
        have hle : L.length ≤ L₁.length := by
          obtain ⟨C, rfl, -⟩ := hx₁
          rw [List.length_append]
          omega
        exact ⟨by omega, fun hst => by cases hst⟩
      have hnew : L₁.has (.earningClawback e.id (clawbacks L e.id).length) = false := by
        rw [Book.has_false_iff]
        intro j hj hr
        have hlt := hclaws₁.counted j hj _ _ hr
        rw [hcb₁] at hlt
        omega
      have hkept' := hkept₁.post hforeign hs
      obtain ⟨rfl, -⟩ := post_ok hs
      obtain ⟨hstand, hcb⟩ := standing_posted hkept₁ (n := e.id) hkept' hnew
        (by rw [hcb₁]; rfl) rfl hlegs
      refine ⟨hkept', ?_, ?_, ?_⟩
      · refine hclaws₁.of_posted (hx₁.mem hj₀) hlegs₀ he₀ ?_ rfl ?_ hwritten
        · rw [hid₀, hcb₁]
          rfl
        · show (journalOf L e.id).bind _ = _
          rw [hjo₀]
          rfl
      · rw [hstand, hstand₁]
        omega
      · exact hwritten₁.trans (extends_write L₁ _ _ _ fun _ => ⟨.inr ⟨rfl, rfl⟩, hlegs.onEarnings⟩)

end

end ClientBridge
