import ClientBridge.Ledger.RefundSplits

/-!
# Taking a refund's journals back

A refund that Stripe failed is taken back journal by journal, each under a reference made of its own
(`takenBackUnder`); a returned tip is either cancelled outright or reversed like the rest.  The journals
of the refund and the ones that took them back add up to those that still stand (`Unwinding`), and each
step of `cancelReturnedTips` and `reverseRefund` takes back one of them, so that in the end none does.
-/

namespace ClientBridge

open Bookkeeping Runs

/-- The references a refund is booked under. -/
def Ref.ofRefund (refundId : Id) : Ref → Bool
  | .refund id | .tip id _ | .feeReturn id => decide (id = refundId)
  | _ => false

/-- Where a journal of a refund is taken back; a returned tip may be cancelled instead. -/
def takenBackUnder (j : LedgerJournal) : List Ref :=
  match j.ref with
  | .tip _ _ => [.failed j.ref, .earningReversal j.id]
  | _ => [.failed j.ref]

def takenBack (L : Ledger) (j : LedgerJournal) : Bool := (takenBackUnder j).any L.has

def refundJournals (L : Ledger) (refundId : Id) : List LedgerJournal :=
  L.filter fun j => j.ref.ofRefund refundId

/-- The references of some journals and of what takes them back. -/
def Ref.among (js : List LedgerJournal) (r : Ref) : Bool :=
  js.any fun j => decide (j.ref = r) || decide (r ∈ takenBackUnder j)

/-- What a refund's journals, and those that took them back, put on the selected accounts. -/
def refundNet (L : Ledger) (refundId : Id) (q : AccountKey → Bool) : Int :=
  onAccounts L (Ref.among (refundJournals L refundId)) q

/-- What a journal still puts on the selected accounts. -/
def stands (L : Ledger) (q : AccountKey → Bool) (j : LedgerJournal) : Int :=
  if takenBack L j then 0 else keyed q j.legs

/-- Nothing is left of a journal on any account. -/
def Cleared (L : Ledger) (j : LedgerJournal) : Prop := ∀ q, stands L q j = 0

theorem mem_refundJournals {L : Ledger} {refundId : Id} {j : LedgerJournal} :
    j ∈ refundJournals L refundId ↔ j ∈ L ∧ j.ref.ofRefund refundId = true := by
  simp [refundJournals]

theorem mem_takenBackUnder {j : LedgerJournal} {r : Ref} (h : r ∈ takenBackUnder j) :
    r = .failed j.ref ∨ ((∃ id s, j.ref = .tip id s) ∧ r = .earningReversal j.id) := by
  unfold takenBackUnder at h
  split at h
  · next id s hj =>
    rcases List.mem_cons.1 h with h | h
    · exact .inl h
    · exact .inr ⟨⟨id, s, hj⟩, List.mem_singleton.1 h⟩
  · exact .inl (List.mem_singleton.1 h)

theorem failed_mem_takenBackUnder (j : LedgerJournal) : Ref.failed j.ref ∈ takenBackUnder j := by
  unfold takenBackUnder
  split <;> simp

theorem reversal_mem_takenBackUnder {j : LedgerJournal} {id s : Id} (h : j.ref = .tip id s) :
    Ref.earningReversal j.id ∈ takenBackUnder j := by
  simp [takenBackUnder, h]

theorem Ref.among_iff {js : List LedgerJournal} {r : Ref} :
    Ref.among js r = true ↔ ∃ j ∈ js, j.ref = r ∨ r ∈ takenBackUnder j := by
  simp [Ref.among]

/-- Once nothing is left of a journal, nothing is left of it later. -/
theorem Cleared.grows {P : Ref → Prop} {L L' : Ledger} {j : LedgerJournal} (h : Cleared L j)
    (hg : Grows P L L') : Cleared L' j := by
  intro q
  have hq := h q
  unfold stands at hq ⊢
  split
  · rfl
  · next hn =>
    have hL : takenBack L j ≠ true := by
      intro ht
      obtain ⟨r, hr, hh⟩ := List.any_eq_true.1 ht
      exact hn (List.any_eq_true.2 ⟨r, hr, hg.has hh⟩)
    rwa [if_neg hL] at hq

theorem Cleared.extends {P : LedgerJournal → Prop} {L L' : Ledger} {j : LedgerJournal} (h : Cleared L j)
    (hx : Extends P L L') : Cleared L' j :=
  h.grows (P := fun _ => True) (hx.mono fun _ _ => trivial)

theorem cleared_of_has {L : Ledger} {j : LedgerJournal} {r : Ref} (hr : r ∈ takenBackUnder j)
    (h : L.has r = true) : Cleared L j := by
  intro q
  have ht : takenBack L j = true := List.any_eq_true.2 ⟨r, hr, h⟩
  rw [stands, if_pos ht]

/-- Turning a journal around takes off each account what it put there. -/
theorem keyed_reversal (q : AccountKey → Bool) (j : LedgerJournal) :
    keyed q (nonzero (negate j.legs)) = -keyed q j.legs := sumOf_reversal j _ fun _ _ => rfl

/-! ## The journals that still stand -/

/-- A ledger in which some of a refund's journals `js` have been taken back. -/
structure Unwinding (refundId : Id) (js : List LedgerJournal) (L : Ledger) : Prop where
  kept : WellKept L
  nodup : js.Nodup
  mem : ∀ j ∈ js, j ∈ L ∧ j.ref.ofRefund refundId = true
  all : ∀ j ∈ L, j.ref.ofRefund refundId = true → j ∈ js
  net : ∀ q, onAccounts L (Ref.among js) q = (js.map (stands L q)).sum

section
variable {refundId : Id} {js : List LedgerJournal} {L : Ledger}

/-- Two journals are never taken back under one reference. -/
theorem Unwinding.apart (h : Unwinding refundId js L) {j j' : LedgerJournal} (hj : j ∈ js) (hj' : j' ∈ js)
    {r : Ref} (hr : r ∈ takenBackUnder j) (hr' : r ∈ takenBackUnder j') : j = j' := by
  have hm := (h.mem j hj).1
  have hm' := (h.mem j' hj').1
  rcases mem_takenBackUnder hr with e | ⟨-, e⟩ <;> rcases mem_takenBackUnder hr' with e' | ⟨-, e'⟩ <;>
    rw [e] at e'
  · exact h.kept.eq_of_ref hm hm' (Ref.failed.inj e')
  · cases e'
  · cases e'
  · exact h.kept.eq_of_id hm hm' (Ref.earningReversal.inj e')

/-- Journals under other references change nothing. -/
theorem Unwinding.grows (h : Unwinding refundId js L) {P : Ref → Prop} {L' : Ledger} (hg : Grows P L L')
    (hP : ∀ r, P r → r.ofRefund refundId = false ∧ ∀ j ∈ js, r ∉ takenBackUnder j) (hk : WellKept L') :
    Unwinding refundId js L' := by
  have hamong : ∀ r, P r → Ref.among js r = false := by
    intro r hr
    rw [Bool.eq_false_iff]
    intro ha
    obtain ⟨j, hj, rfl | hu⟩ := Ref.among_iff.1 ha
    · have hof := (hP j.ref hr).1
      rw [(h.mem j hj).2] at hof
      cases hof
    · exact (hP r hr).2 j hj hu
  refine ⟨hk, h.nodup, fun j hj => ⟨hg.mem (h.mem j hj).1, (h.mem j hj).2⟩, fun j hj hr => ?_, fun q => ?_⟩
  · rcases hg.mem_or hj with hj | hj
    · exact h.all j hj hr
    · rw [(hP _ hj).1] at hr
      cases hr
  · rw [onAccounts_of_grows hg hamong, h.net q]
    refine congrArg List.sum (List.map_congr_left fun j hj => ?_)
    have hsame : takenBack L' j = takenBack L j := by
      unfold takenBack
      rw [Bool.eq_iff_iff, List.any_eq_true, List.any_eq_true]
      refine exists_congr fun r => and_congr_right fun hr => ?_
      rw [hg.has_eq fun hp => (hP r hp).2 j hj hr]
    rw [stands, stands, hsame]

/-- A journal of the refund that nothing has taken back yet is turned around. -/
theorem Unwinding.takeBack (h : Unwinding refundId js L) {j : LedgerJournal} (hj : j ∈ js) {r : Ref}
    (hr : r ∈ takenBackUnder j) (hfree : ∀ x ∈ takenBackUnder j, x ≠ r → L.has x = false) (i : Info) :
    Unwinding refundId js (L.write r i (nonzero (negate j.legs))) ∧
      Cleared (L.write r i (nonzero (negate j.legs))) j := by
  cases hhas : L.has r with
  | true =>
    rw [Book.write_of_has hhas]
    exact ⟨h, cleared_of_has hr hhas⟩
  | false =>
    have hof : r.ofRefund refundId = false := by
      rcases mem_takenBackUnder hr with e | ⟨-, e⟩ <;> rw [e] <;> rfl
    have hclear : Cleared (L.write r i (nonzero (negate j.legs))) j := by
      intro q
      by_cases hl : nonzero (negate j.legs) = []
      · have hz := keyed_reversal q j
        rw [hl, keyed_nil] at hz
        unfold stands
        split
        · rfl
        · omega
      · refine cleared_of_has hr ?_ q
        rw [Book.has_write, decide_eq_true rfl, List.isEmpty_eq_false_iff.2 hl]
        simp
    refine ⟨⟨h.kept.write r i (by simp [h.kept.balanced j (h.mem j hj).1]), h.nodup, fun j' hj' =>
      ⟨Book.mem_write_of_mem (h.mem j' hj').1 _ _ _, (h.mem j' hj').2⟩, fun j' hj' hr' => ?_, fun q => ?_⟩, hclear⟩
    · rcases Book.mem_write hj' with hj' | ⟨-, -, rfl⟩
      · exact h.all j' hj' hr'
      · rw [hof] at hr'
        cases hr'
    · have hother : ∀ j' ∈ js.erase j, stands (L.write r i (nonzero (negate j.legs))) q j' = stands L q j' := by
        intro j' hj'
        obtain ⟨hjj, hj'⟩ := h.nodup.mem_erase_iff.1 hj'
        have hsame : takenBack (L.write r i (nonzero (negate j.legs))) j' = takenBack L j' := by
          unfold takenBack
          rw [Bool.eq_iff_iff, List.any_eq_true, List.any_eq_true]
          refine exists_congr fun x => and_congr_right fun hx => ?_
          have hne' : r ≠ x := by
            rintro rfl
            exact hjj (h.apart hj' hj hx hr)
          rw [Book.has_write_of_ne hne']
        rw [stands, stands, hsame]
      have hbefore : stands L q j = keyed q j.legs := by
        rw [stands, if_neg]
        intro ht
        obtain ⟨x, hx, hh⟩ := List.any_eq_true.1 ht
        by_cases e : x = r
        · rw [e, hhas] at hh
          cases hh
        · rw [hfree x hx e] at hh
          cases hh
      have hperm := List.perm_cons_erase hj
      have hin : Ref.among js r = true := Ref.among_iff.2 ⟨j, hj, .inr hr⟩
      rw [onAccounts_write, h.net q, (hperm.map _).sum_eq, (hperm.map _).sum_eq, List.map_cons, List.map_cons,
        List.sum_cons, List.sum_cons, hclear q, hbefore, List.map_congr_left hother, hhas, hin, keyed_reversal]
      simp only [Bool.not_true, Bool.or_self, Bool.false_eq_true, if_false]
      omega

end

/-! ## Cancelling the returned tips -/

/-- The events of the journals that move an earning between its stages. -/
def EntryEvent.isMove : EntryEvent → Bool
  | .approval | .staffPayment => true
  | _ => false

/-- A journal that takes back one of a refund's journals. -/
structure TakesBack (refundId : Id) (js : List LedgerJournal) (m : LedgerJournal) : Prop where
  under : ∃ j ∈ js, m.ref ∈ takenBackUnder j
  unmoved : m.info.event.isMove = false
  source : m.info.event = .refund → m.info.source = some (.payment refundId)

/-- No move of a stage was ever posted for these journals. -/
def Unmoved (js : List LedgerJournal) (L : Ledger) : Prop :=
  ∀ j ∈ js, ∀ m ∈ L, m.info.source = some (.journal j.id) → m.info.event.isMove = false

theorem earningStatus_unmoved {L : Ledger} {id : Nat}
    (h : ∀ m ∈ L, m.info.source = some (.journal id) → m.info.event.isMove = false) :
    earningStatus L id = .pending ∨ earningStatus L id = .reversed := by
  have hnone : ∀ stage : Stage, stageNet (stageRefs L id) stage = 0 := by
    intro stage
    have hnil : (stageRefs L id).filter (fun x => decide (x.1 = stage.event)) = [] := by
      rw [List.filter_eq_nil_iff]
      intro x hx hev
      obtain ⟨m, hm, rfl⟩ := List.mem_map.1 hx
      obtain ⟨hm, hp⟩ := List.mem_filter.1 hm
      rw [Bool.and_eq_true] at hp
      have hmove := h m hm (of_decide_eq_true hp.1)
      have hev : m.info.event = stage.event := of_decide_eq_true hev
      rw [hev] at hmove
      cases stage <;> cases hmove
    rw [stageNet, hnil]
    rfl
  unfold earningStatus stageOf
  rw [hnone, hnone]
  split
  · exact .inr rfl
  · exact .inl rfl

section
variable {refundId : Id} {js : List LedgerJournal} {L : Ledger}

/-- Nothing of the refund has been reversed yet, so that what is taken back was cancelled. -/
structure Cancelling (refundId : Id) (js : List LedgerJournal) (L : Ledger) : Prop where
  unwinding : Unwinding refundId js L
  unmoved : Unmoved js L
  unfailed : ∀ j ∈ js, L.has (.failed j.ref) = false

theorem Unwinding.find (h : Unwinding refundId js L) {r : Ref} (hr : r.ofRefund refundId = true)
    {j : LedgerJournal} (hf : L.find r = some j) : j ∈ js ∧ j.ref = r := by
  obtain ⟨hj, rfl⟩ := Book.find_mem hf
  exact ⟨h.all j hj hr, rfl⟩

theorem Cancelling.cancelReturnedTip (h : Cancelling refundId js L) (staffId : Id) :
    ∃ L', cancelReturnedTip L refundId staffId = .ok L' ∧ Cancelling refundId js L' ∧
      Extends (TakesBack refundId js) L L' := by
  unfold ClientBridge.cancelReturnedTip
  split
  · exact ⟨L, rfl, h, Extends.refl _ L⟩
  · next j hf =>
    obtain ⟨hj, href⟩ := h.unwinding.find (by simp [Ref.ofRefund]) hf
    split
    · exact ⟨L, rfl, h, Extends.refl _ L⟩
    · next tip ht =>
      have hstatus : tip.status = earningStatus L j.id := by
        unfold loadEarning at ht
        split at ht
        · cases ht
        · split at ht
          · obtain ⟨x, -, rfl⟩ := Option.map_eq_some_iff.1 ht
            rfl
          · cases ht
      rcases earningStatus_unmoved (h.unmoved j hj) with he | he
      · -- a returned tip that was just booked is pending
        rw [hstatus, he]
        have hbal := h.unwinding.kept.balanced j (h.unwinding.mem j hj).1
        refine ⟨L.write (.earningReversal j.id) ⟨.reversal, some (.journal j.id), {}⟩ (nonzero (negate j.legs)),
          ?_, ⟨(h.unwinding.takeBack hj (reversal_mem_takenBackUnder href) ?_ _).1, ?_, ?_⟩,
          extends_write L _ _ _ fun _ => ⟨⟨j, hj, reversal_mem_takenBackUnder href⟩, rfl, fun he => by cases he⟩⟩
        · simp [reversePlain, reverse_eq hbal, bind, Except.bind]
        · intro x hx hne
          rcases mem_takenBackUnder hx with rfl | ⟨-, rfl⟩
          · exact h.unfailed j hj
          · exact absurd rfl hne
        · intro j' hj' m hm hs
          rcases Book.mem_write hm with hm | ⟨-, -, rfl⟩
          · exact h.unmoved j' hj' m hm hs
          · rfl
        · intro j' hj'
          rw [Book.has_write_of_ne (by simp)]
          exact h.unfailed j' hj'
      · rw [hstatus, he]
        exact ⟨L, rfl, h, Extends.refl _ L⟩

theorem Cancelling.cancelTips (h : Cancelling refundId js L) (staff : List Id) :
    ∃ L', staff.foldlM (fun L staffId => ClientBridge.cancelReturnedTip L refundId staffId) L = .ok L' ∧
      Cancelling refundId js L' ∧ Extends (TakesBack refundId js) L L' := by
  induction staff generalizing L with
  | nil => exact ⟨L, rfl, h, Extends.refl _ L⟩
  | cons staffId staff ih =>
    obtain ⟨L₁, h₁, hc₁, hg₁⟩ := h.cancelReturnedTip staffId
    obtain ⟨L₂, h₂, hc₂, hg₂⟩ := ih hc₁
    refine ⟨L₂, ?_, hc₂, hg₁.trans hg₂⟩
    rw [List.foldlM_cons, h₁]
    exact h₂

/-! ## A refund that was just booked -/

/-- What a refund is booked and taken back under is free. -/
def Unbooked (L : Ledger) (refundId : Id) : Prop :=
  ∀ r : Ref, r.ofRefund refundId = true → L.has r = false ∧ L.has (.failed r) = false

/-- A booked refund of which nothing was taken back, and whose returned tips nothing moved. -/
structure JustBooked (L : Ledger) (refundId : Id) (staff : List Id) : Prop where
  kept : WellKept L
  tips : ∀ s, L.has (.tip refundId s) = true → s ∈ staff
  unfailed : ∀ r : Ref, r.ofRefund refundId = true → L.has (.failed r) = false
  uncancelled : ∀ j ∈ refundJournals L refundId, L.has (.earningReversal j.id) = false
  unmoved : Unmoved (refundJournals L refundId) L

theorem sum_selected (L : Ledger) (p : LedgerJournal → Bool) (q : AccountKey → Bool) :
    L.sum (fun j e => p j && q e.key) = ((L.filter p).map fun j => keyed q j.legs).sum := by
  induction L with
  | nil => rfl
  | cons j L ih =>
    rw [Book.sum_cons, ih]
    cases hp : p j with
    | true => rw [List.filter_cons_of_pos hp, List.map_cons, List.sum_cons]; simp [keyed]
    | false => rw [List.filter_cons_of_neg (by simp [hp])]; simp [sumOf_false]

/-- Where nothing was taken back, a refund's journals are those under its references. -/
theorem onAccounts_among (h : ∀ j ∈ refundJournals L refundId, ∀ r ∈ takenBackUnder j, L.has r = false)
    (q : AccountKey → Bool) :
    onAccounts L (Ref.among (refundJournals L refundId)) q = onAccounts L (Ref.ofRefund refundId) q := by
  refine Book.sum_congr fun j hj e _ => ?_
  have hamong : Ref.among (refundJournals L refundId) j.ref = j.ref.ofRefund refundId := by
    rw [Bool.eq_iff_iff, Ref.among_iff]
    constructor
    · rintro ⟨j', hj', href | hu⟩
      · exact href ▸ (mem_refundJournals.1 hj').2
      · exact absurd rfl ((L.has_false_iff _).1 (h j' hj' _ hu) j hj)
    · exact fun hr => ⟨j, mem_refundJournals.2 ⟨hj, hr⟩, .inl rfl⟩
  rw [hamong]

theorem JustBooked.untaken {staff : List Id} (h : JustBooked L refundId staff) :
    ∀ j ∈ refundJournals L refundId, ∀ r ∈ takenBackUnder j, L.has r = false := by
  intro j hj r hr
  rcases mem_takenBackUnder hr with rfl | ⟨-, rfl⟩
  · exact h.unfailed _ (mem_refundJournals.1 hj).2
  · exact h.uncancelled j hj

theorem JustBooked.cancelling {staff : List Id} (h : JustBooked L refundId staff) :
    Cancelling refundId (refundJournals L refundId) L := by
  have hfree := h.untaken
  refine ⟨⟨h.kept, h.kept.nodup.filter _, fun j hj => mem_refundJournals.1 hj,
    fun j hj hr => mem_refundJournals.2 ⟨hj, hr⟩, fun q => ?_⟩, h.unmoved,
    fun j hj => h.unfailed _ (mem_refundJournals.1 hj).2⟩
  rw [onAccounts_among hfree]
  unfold onAccounts
  rw [sum_selected L fun j => j.ref.ofRefund refundId]
  refine congrArg List.sum (List.map_congr_left fun j hj => ?_)
  rw [stands, if_neg]
  intro ht
  obtain ⟨r, hr, hh⟩ := List.any_eq_true.1 ht
  rw [hfree j hj r hr] at hh
  cases hh

/-! ## Reversing the rest -/

/-- A journal other than a tip's is taken back under one reference only. -/
theorem Unwinding.takeBackFailed (h : Unwinding refundId js L) {j : LedgerJournal} (hj : j ∈ js)
    (href : ∀ id s, j.ref ≠ .tip id s) (i : Info) :
    Unwinding refundId js (L.write (.failed j.ref) i (nonzero (negate j.legs))) ∧
      Cleared (L.write (.failed j.ref) i (nonzero (negate j.legs))) j := by
  refine h.takeBack hj (failed_mem_takenBackUnder j) (fun x hx hne => ?_) i
  rcases mem_takenBackUnder hx with rfl | ⟨⟨id, s, ht⟩, -⟩
  · exact absurd rfl hne
  · exact absurd ht (href id s)

theorem Unwinding.reverseRefundJournal (h : Unwinding refundId js L) :
    ∃ L', ClientBridge.reverseRefundJournal L refundId = .ok L' ∧ Unwinding refundId js L' ∧
      Extends (TakesBack refundId js) L L' ∧ ∀ j ∈ js, j.ref = .refund refundId → Cleared L' j := by
  unfold ClientBridge.reverseRefundJournal
  split
  · next hf =>
    refine ⟨L, rfl, h, Extends.refl _ L, fun j hj href => ?_⟩
    have hn := (L.has_false_iff _).1 ((L.find_eq_none_iff _).1 hf) j (h.mem j hj).1
    exact absurd href hn
  · next j hf =>
    obtain ⟨hj, href⟩ := h.find (by simp [Ref.ofRefund]) hf
    obtain ⟨hw, hclear⟩ := h.takeBackFailed hj (by simp [href]) ⟨.refund, some (.payment refundId), {}⟩
    rw [href] at hw hclear
    refine ⟨_, reverse_eq (h.kept.balanced j (h.mem j hj).1) L _ _ _ _, hw,
      extends_write L _ _ _ fun _ => ⟨⟨j, hj, href ▸ failed_mem_takenBackUnder j⟩, rfl, fun _ => rfl⟩,
      fun j' hj' href' => ?_⟩
    rw [h.kept.eq_of_ref (h.mem j' hj').1 (h.mem j hj).1 (href'.trans href.symm)]
    exact hclear

theorem Unwinding.reverseTip (h : Unwinding refundId js L) (staffId : Id) :
    ∃ L', ClientBridge.reverseTip L refundId staffId = .ok L' ∧ Unwinding refundId js L' ∧
      Extends (TakesBack refundId js) L L' ∧ ∀ j ∈ js, j.ref = .tip refundId staffId → Cleared L' j := by
  unfold ClientBridge.reverseTip
  split
  · next hf =>
    refine ⟨L, rfl, h, Extends.refl _ L, fun j hj href => ?_⟩
    have hn := (L.has_false_iff _).1 ((L.find_eq_none_iff _).1 hf) j (h.mem j hj).1
    exact absurd href hn
  · next j hf =>
    obtain ⟨hj, href⟩ := h.find (by simp [Ref.ofRefund]) hf
    have honly : ∀ j' ∈ js, j'.ref = .tip refundId staffId → j' = j := fun j' hj' href' =>
      h.kept.eq_of_ref (h.mem j' hj').1 (h.mem j hj).1 (href'.trans href.symm)
    split
    · next hhas =>
      refine ⟨L, rfl, h, Extends.refl _ L, fun j' hj' href' => ?_⟩
      rw [honly j' hj' href']
      exact cleared_of_has (reversal_mem_takenBackUnder href) hhas
    · next hhas =>
      obtain ⟨hw, hclear⟩ := h.takeBack hj (r := .failed (.tip refundId staffId))
        (href ▸ failed_mem_takenBackUnder j) (fun x hx hne => by
          rcases mem_takenBackUnder hx with rfl | ⟨-, rfl⟩
          · exact absurd (congrArg Ref.failed href) hne
          · simpa using hhas) ⟨.tip, some (.payment refundId), { basis := some .tip }⟩
      refine ⟨_, reverse_eq (h.kept.balanced j (h.mem j hj).1) L _ _ _ _, hw,
        extends_write L _ _ _ fun _ => ⟨⟨j, hj, href ▸ failed_mem_takenBackUnder j⟩, rfl, fun he => by cases he⟩,
        fun j' hj' href' => ?_⟩
      rw [honly j' hj' href']
      exact hclear

theorem Unwinding.reverseTips (h : Unwinding refundId js L) (staff : List Id) :
    ∃ L', staff.foldlM (fun L staffId => ClientBridge.reverseTip L refundId staffId) L = .ok L' ∧
      Unwinding refundId js L' ∧ Extends (TakesBack refundId js) L L' ∧
      ∀ s ∈ staff, ∀ j ∈ js, j.ref = .tip refundId s → Cleared L' j := by
  induction staff generalizing L with
  | nil => exact ⟨L, rfl, h, Extends.refl _ L, by simp⟩
  | cons staffId staff ih =>
    obtain ⟨L₁, h₁, hw₁, hg₁, hc₁⟩ := h.reverseTip staffId
    obtain ⟨L₂, h₂, hw₂, hg₂, hc₂⟩ := ih hw₁
    refine ⟨L₂, ?_, hw₂, hg₁.trans hg₂, fun s hs j hj href => ?_⟩
    · rw [List.foldlM_cons, h₁]
      exact h₂
    · rcases List.mem_cons.1 hs with rfl | hs
      · exact (hc₁ j hj href).extends hg₂
      · exact hc₂ s hs j hj href

end

end ClientBridge
