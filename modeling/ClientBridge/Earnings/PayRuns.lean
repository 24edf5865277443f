import ClientBridge.Earnings.EarningRuns

/-!
# What a pay run paid a member

A pay refuses to pay a member less than nothing, and an unpay later takes payments of the run
back.  It takes corrections along with the work they correct and leaves what else the run
deducted, so a run can be left with its deductions alone (`deduction_left_alone`).  As long as
no unpay takes back more of a run than it stands at, every run is worth nothing or more
(`pay_runs_safe`).
-/

namespace ClientBridge

open Bookkeeping Runs

/-! ## The payments of a run -/

/-- A payment of one of these earnings. -/
def Ref.paymentIn (left : Nat → Bool) : Ref → Bool
  | .stage .staffPayment n _ => left n
  | _ => false

/-- What a run still pays a member for these earnings: its payments that were not undone. -/
def paidIn (L : Ledger) (run : Nat) (staffId : Id) (left : Nat → Bool) : Int :=
  L.sum fun j e => j.ref.paymentIn left && decide (j.info.metadata.run = some run) &&
    !L.has (.undo j.ref) && decide (e.key = approvedKey staffId)

section
variable {L L' : Ledger} {run : Nat} {staffId : Id} {left : Nat → Bool}

/-- Journals that are neither payments nor undo one leave every run as it is. -/
theorem paidIn_extends {P : LedgerJournal → Prop} (hx : Extends P L L')
    (hP : ∀ j, P j → (∀ n i, j.ref ≠ .stage .staffPayment n i) ∧ ∀ r, j.ref ≠ .undo r) :
    paidIn L' run staffId left = paidIn L run staffId left := by
  have hhas : ∀ r, L'.has (.undo r) = L.has (.undo r) := by
    intro r
    have hg : Grows (fun r => ∀ r', r ≠ .undo r') L L' := hx.mono fun j hj => (hP j hj).2
    exact hg.has_eq fun h => h r rfl
  unfold paidIn
  simp only [hhas]
  refine hx.sum_eq fun j hj e _ => ?_
  have hnot : j.ref.paymentIn left = false := by
    unfold Ref.paymentIn
    split
    · next n i hr => exact absurd hr ((hP j hj).1 n i)
    · rfl
  rw [hnot]
  rfl

/-- A new payment adds what it pays. -/
theorem paidIn_payment {n k : Nat} {i : Info} {legs : List Leg} (hnew : L.has (.stage .staffPayment n k) = false)
    (hundo : L.has (.undo (.stage .staffPayment n k)) = false) :
    paidIn (L.write (.stage .staffPayment n k) i legs) run staffId left = paidIn L run staffId left +
      if left n = true ∧ i.metadata.run = some run then keyed (fun key => decide (key = approvedKey staffId)) legs
      else 0 := by
  have hhas : ∀ r, (L.write (.stage .staffPayment n k) i legs).has (.undo r) = L.has (.undo r) := by
    intro r
    have hg : Grows (fun r' => r' = .stage .staffPayment n k) L (L.write (.stage .staffPayment n k) i legs) :=
      grows_write (P := fun r' => r' = .stage .staffPayment n k) rfl L i legs
    exact hg.has_eq fun h => by cases h
  unfold paidIn
  simp only [hhas]
  rw [Book.sum_write_new hnew]
  congr 1
  simp only [Ref.paymentIn, hundo, Bool.not_false, Bool.and_true]
  by_cases h : left n = true ∧ i.metadata.run = some run
  · rw [if_pos h, keyed]
    refine sumOf_congr fun e _ => ?_
    simp [h.1, h.2]
  · rw [if_neg h]
    have hfalse : ∀ e : Leg, (left n && decide (i.metadata.run = some run) && decide (e.key = approvedKey staffId)) =
        false := by
      intro e
      by_cases hl : left n = true
      · have hr : ¬i.metadata.run = some run := fun hr => h ⟨hl, hr⟩
        simp [hr]
      · simp [hl]
    simp only [hfalse]
    exact sumOf_false _

/-- Undoing what is not counted leaves the count. -/
theorem paidIn_undo {r : Ref} {i : Info} {legs : List Leg} (hr : r.paymentIn left = false) :
    paidIn (L.write (.undo r) i legs) run staffId left = paidIn L run staffId left := by
  have hhas : ∀ r', r'.paymentIn left = true → (L.write (.undo r) i legs).has (.undo r') = L.has (.undo r') := by
    intro r' hr'
    have hg : Grows (fun r'' => r'' = .undo r) L (L.write (.undo r) i legs) :=
      grows_write (P := fun r'' => r'' = .undo r) rfl L i legs
    refine hg.has_eq fun h => ?_
    cases h
    rw [hr] at hr'
    cases hr'
  have hsame : ∀ j : LedgerJournal, (j.ref.paymentIn left && decide (j.info.metadata.run = some run) &&
      !(L.write (.undo r) i legs).has (.undo j.ref)) =
        (j.ref.paymentIn left && decide (j.info.metadata.run = some run) && !L.has (.undo j.ref)) := by
    intro j
    by_cases hj : j.ref.paymentIn left = true
    · rw [hhas _ hj]
    · simp [hj]
  unfold paidIn
  simp only [hsame]
  refine (extends_write (P := fun j => j.ref.paymentIn left = false) L _ i legs fun _ => rfl).sum_eq ?_
  intro j hj e _
  rw [hj]
  rfl

end

/-! ## What the commands do to it -/

section
variable {L L' : Ledger} {run : Nat} {staffId : Id} {left : Nat → Bool}

/-- What a move of one earning pays. -/
def paysNow (move : Move) (metadata : Metadata) (run : Nat) (staffId : Id) (left : Nat → Bool) (e : Earning) : Int :=
  if move = .pay ∧ metadata.run = some run ∧ e.staffId = staffId ∧ left e.id = true then e.amountCents else 0

theorem EarningsKept.paidIn_move (h : EarningsKept L) {e : Earning} {move : Move} {metadata : Metadata}
    (hk : Known L e) (hs : earningStatus L e.id = move.starts) (hleft : move = .unpay → left e.id = false)
    (hm : moveEarning L e move metadata = .ok L') :
    paidIn L' run staffId left = paidIn L run staffId left + paysNow move metadata run staffId left e := by
  obtain ⟨p, hp⟩ := hk.stages h
  obtain ⟨j, -, -, -, -, hne⟩ := id hk
  obtain ⟨-, hodd, -⟩ := Move.counts (hp.status.symm.trans hs)
  obtain ⟨i, legs, heq, hw⟩ := h.moveEarning_eq hp hne (hp.status.symm.trans hs) metadata
  rw [heq] at hm
  cases hm
  have hnew := h.entry_new hp move.stage
  unfold stageEntry at hnew ⊢
  cases move with
  | approve =>
    have heven : p.count (Move.stage .approve) % 2 = 0 := by
      have := mt hodd.1 (by simp [Move.isUndo])
      omega
    rw [if_pos heven] at hnew ⊢
    rw [paysNow, if_neg (by simp), Int.add_zero]
    refine paidIn_extends (extends_write L _ i legs fun _ => ?_) fun j hj => hj
    constructor
    · intro n k hr
      cases hr
    · intro r hr
      cases hr
  | pay =>
    have heven : p.count (Move.stage .pay) % 2 = 0 := by
      have := mt hodd.1 (by simp [Move.isUndo])
      omega
    rw [if_pos heven] at hnew ⊢
    have hundo : L.has (.undo (.stage .staffPayment e.id (p.count (Move.stage .pay) / 2))) = false := by
      rw [Book.has_false_iff]
      intro j hj hr
      obtain ⟨stage, n, k, hr', hev, hsrc⟩ := h.undos j hj _ hr
      cases hr'
      have hmem := mem_stageRefs hj hsrc (by rw [hev]; rfl)
      rw [hev, hr, hp.refs, mem_history_undo] at hmem
      have hlt : 2 * (p.count (Move.stage .pay) / 2) + 1 < p.count (Move.stage .pay) := hmem.2.2
      omega
    have hkeyed := hw.keyed fun key => decide (key = approvedKey staffId)
    rw [if_pos heven, Int.one_mul] at hkeyed
    show paidIn (L.write (.stage .staffPayment e.id _) i legs) run staffId left = _
    rw [paidIn_payment hnew hundo, hw.run rfl, hkeyed]
    congr 1
    unfold paysNow
    by_cases hpays : left e.id = true ∧ metadata.run = some run
    · rw [if_pos hpays]
      simp only [Move.stage, stageLegs, keyed_cons, keyed_nil, legOf_key, legOf_cents, leg_key, approvedKey, AccountKey.mk.injEq,
        Owner.staff.injEq]
      simp [hpays.1, hpays.2]
    · rw [if_neg hpays, if_neg]
      rintro ⟨-, hr, -, hl⟩
      exact hpays ⟨hl, hr⟩
  | unapprove =>
    have hcount : ¬p.count (Move.stage .unapprove) % 2 = 0 := by
      have := hodd.2 rfl
      omega
    rw [if_neg hcount, paysNow, if_neg (by simp), Int.add_zero]
    exact paidIn_undo rfl
  | unpay =>
    have hcount : ¬p.count (Move.stage .unpay) % 2 = 0 := by
      have := hodd.2 rfl
      omega
    rw [if_neg hcount, paysNow, if_neg (by simp), Int.add_zero]
    exact paidIn_undo (hleft rfl)

theorem EarningsKept.paidIn_moveOne (h : EarningsKept L) {e : Earning} {move : Move} {metadata : Metadata}
    (hr : Ready L move e) (hleft : move = .unpay → left e.id = false)
    (hm : ClientBridge.moveOne L move metadata e = .ok L') :
    paidIn L' run staffId left = paidIn L run staffId left + paysNow move metadata run staffId left e := by
  obtain ⟨L₁, hL₁, hkept₁, hmove, hk₁, hs₁, -⟩ := h.moveOne hr.known hr.status hr.start hm
  rw [hkept₁.paidIn_move hk₁ hs₁ hleft hmove]
  congr 1
  rcases hL₁ with rfl | ⟨rfl, hpending, happrove, -⟩
  · rfl
  · have hstart : earningStatus L e.id = Move.starts .approve := hr.status.trans hpending
    rw [h.paidIn_move hr.known hstart (fun hf => by cases hf) happrove, paysNow, if_neg (by simp), Int.add_zero]

theorem EarningsKept.paidIn_moveAll {move : Move} {metadata : Metadata} {ready : List Earning}
    (hn : (ready.map (·.id)).Nodup) (h : EarningsKept L) (hr : ∀ e ∈ ready, Ready L move e)
    (hleft : move = .unpay → ∀ e ∈ ready, left e.id = false)
    (hm : ready.foldlM (fun L e => ClientBridge.moveOne L move metadata e) L = .ok L') :
    paidIn L' run staffId left =
      paidIn L run staffId left + (ready.map (paysNow move metadata run staffId left)).sum := by
  induction ready generalizing L with
  | nil =>
    cases hm
    simp
  | cons e ready ih =>
    rw [List.foldlM_cons] at hm
    obtain ⟨L₁, h₁, hm⟩ := bind_ok hm
    obtain ⟨hnot, hn⟩ := List.nodup_cons.1 hn
    have he := hr e List.mem_cons_self
    have hfirst := h.moveOne_moved he h₁
    have hready : ∀ e' ∈ ready, Ready L₁ move e' := fun e' he' =>
      hfirst.ready h (hr e' (List.mem_cons_of_mem _ he')) fun hin =>
        hnot (List.mem_map.2 ⟨e', he', List.mem_singleton.1 hin⟩)
    rw [ih hn (h.advances hfirst.advances) hready (fun hu e' he' => hleft hu e' (List.mem_cons_of_mem _ he')) hm,
      h.paidIn_moveOne he (fun hu => hleft hu e List.mem_cons_self) h₁, List.map_cons, List.sum_cons]
    omega

/-- Once the payments of an earning are undone it no longer counts. -/
theorem EarningsKept.paidIn_of_undone (h : EarningsKept L) {ids : List Nat}
    (hids : ∀ n ∈ ids, ∃ j ∈ L, j.id = n ∧ j.info.event.isEarning = true ∧ earningStatus L n = .approved) :
    paidIn L run staffId (fun _ => true) = paidIn L run staffId fun n => decide (n ∉ ids) := by
  unfold paidIn
  refine Book.sum_congr fun j hj e _ => ?_
  by_cases hp : j.ref.paymentIn fun _ => true
  · obtain ⟨n, i, href⟩ : ∃ n i, j.ref = .stage .staffPayment n i := by
      unfold Ref.paymentIn at hp
      split at hp
      · next n i hr => exact ⟨n, i, hr⟩
      · cases hp
    by_cases hn : n ∈ ids
    · obtain ⟨j₀, hj₀, rfl, he₀, hstat⟩ := hids n hn
      obtain ⟨s, a, p, -, -, hst⟩ := h.earnings j₀ hj₀ he₀
      rw [hst.status] at hstat
      have heven := (Progress.of_approved hstat).2.1
      obtain ⟨hev, hsrc⟩ := h.stages j hj _ _ _ href
      have hmem := mem_stageRefs hj hsrc (by rw [hev]; rfl)
      rw [hev, href, hst.refs, mem_history_stage] at hmem
      have hlt : 2 * i < p.payments := hmem.2.2
      have hundo : Ref.undo (.stage .staffPayment j₀.id i) ∈ refsOf L j₀.id Stage.staffPayment.event := by
        rw [hst.refs, mem_history_undo]
        refine ⟨rfl, rfl, ?_⟩
        show 2 * i + 1 < p.payments
        omega
      have hhas : L.has (.undo j.ref) = true := by
        rw [href]
        obtain ⟨x, hx, hr⟩ := List.mem_map.1 (mem_refsOf.1 hundo)
        have hr' : x.ref = .undo (.stage .staffPayment j₀.id i) := congrArg Prod.snd hr
        rw [← hr']
        exact (L.has_iff _).2 ⟨x, List.mem_of_mem_filter hx, rfl⟩
      rw [hhas]
      simp
    · simp [href, Ref.paymentIn, hn]
  · have hp' : j.ref.paymentIn (fun n => decide (n ∉ ids)) = false := by
      unfold Ref.paymentIn at hp ⊢
      split <;> simp_all
    have hp : j.ref.paymentIn (fun _ => true) = false := by simpa using hp
    rw [hp, hp']

end

/-! ## Runs of the earnings -/

/-- The earnings an unpay moves: those asked for and the corrections that were paid with them. -/
def unpays (L : Ledger) (ids : List Nat) : List Nat :=
  Dict.fromKeys ids ++ travellers L .unpay [] (Dict.fromKeys ids)

/-- An unpay of these earnings takes back of a run, from any member, no more than the run stands
at for them.  One that takes back nothing, or a deduction, always does. -/
def TakesNoMore (L : Ledger) (ids : List Nat) : Prop :=
  ∀ run staffId, 0 < paidIn L run staffId (fun n => decide (n ∈ unpays L ids)) →
    paidIn L run staffId (fun n => decide (n ∈ unpays L ids)) ≤ paidIn L run staffId fun _ => true

/-- A step whose unpay takes back no more than the runs stand at. -/
def FairStep (L : Ledger) (a : EarningAction) (L' : Ledger) : Prop :=
  EarningStep L a L' ∧ ∀ ids run, a = .move ids .unpay run → TakesNoMore L ids

section
variable {L L' : Ledger} {staffId : Id}

/-- A payment is of an earning of a set or of one outside it. -/
theorem Ref.paymentIn_split (r : Ref) (left : Nat → Bool) :
    r.paymentIn (fun _ => true) = (r.paymentIn left || r.paymentIn fun n => !left n) := by
  unfold Ref.paymentIn
  split
  · simp
  · rfl

theorem Ref.paymentIn_apart (r : Ref) (left : Nat → Bool) :
    ¬(r.paymentIn left = true ∧ (r.paymentIn fun n => !left n) = true) := by
  unfold Ref.paymentIn
  split <;> simp

/-- What a run pays for a set of earnings and for all others is all it pays. -/
theorem paidIn_split (L : Ledger) (run : Nat) (staffId : Id) (left : Nat → Bool) :
    paidIn L run staffId left + paidIn L run staffId (fun n => !left n) = paidIn L run staffId fun _ => true := by
  unfold paidIn
  rw [← Book.sum_or_of_disjoint]
  · refine Book.sum_congr fun j _ e _ => ?_
    rw [j.ref.paymentIn_split left]
    simp only [Bool.and_assoc, Bool.and_or_distrib_right]
  · intro j _ e _ h
    simp only [Bool.and_eq_true] at h
    exact j.ref.paymentIn_apart left ⟨h.1.1.1.1, h.2.1.1.1⟩

/-- So it does when every payment it leaves paid something. -/
theorem takesNoMore_of_paid {ids : List Nat}
    (h : ∀ j ∈ L, (j.ref.paymentIn fun n => !decide (n ∈ unpays L ids)) = true →
      ∀ e ∈ j.legs, e.key.code = .approved → 0 ≤ e.cents) : TakesNoMore L ids := by
  intro run staffId _
  have hleft : 0 ≤ paidIn L run staffId fun n => !decide (n ∈ unpays L ids) := by
    unfold paidIn
    refine Book.sum_nonneg fun j hj e he hp => ?_
    simp only [Bool.and_eq_true, decide_eq_true_eq] at hp
    refine h j hj hp.1.1.1 e he ?_
    rw [hp.2]
    rfl
  have hsplit := paidIn_split L run staffId fun n => decide (n ∈ unpays L ids)
  omega

/-- What a pay adds to its own run is what it pays the member. -/
theorem sum_paysNow (ready : List Earning) (metadata : Metadata) (run : Nat) (staffId : Id) :
    (ready.map (paysNow .pay metadata run staffId fun _ => true)).sum =
      if metadata.run = some run then memberTotal ready staffId else 0 := by
  induction ready with
  | nil => simp [memberTotal]
  | cons e ready ih =>
    rw [List.map_cons, List.sum_cons, ih]
    unfold paysNow memberTotal
    by_cases hr : metadata.run = some run
    · by_cases hs : e.staffId = staffId
      · simp [hr, hs]
      · simp [hr, hs]
    · simp [hr]

theorem memberTotal_nonneg {ready : List Earning} (h : ∀ e ∈ ready, 0 ≤ memberTotal ready e.staffId) :
    0 ≤ memberTotal ready staffId := by
  by_cases hs : ∃ e ∈ ready, e.staffId = staffId
  · obtain ⟨e, he, rfl⟩ := hs
    exact h e he
  · have hnil : (ready.filter fun e => decide (e.staffId = staffId)) = [] := by
      rw [List.filter_eq_nil_iff]
      intro e he hq
      exact hs ⟨e, he, of_decide_eq_true hq⟩
    unfold memberTotal
    rw [hnil]
    exact le_refl 0

/-- No run stands below nothing. -/
def RunsPaid (L : Ledger) : Prop := ∀ run staffId, 0 ≤ paidIn L run staffId fun _ => true

theorem RunsPaid.of_extends (h : RunsPaid L) {P : LedgerJournal → Prop} (hx : Extends P L L')
    (hP : ∀ j, P j → (∀ n i, j.ref ≠ .stage .staffPayment n i) ∧ ∀ r, j.ref ≠ .undo r) : RunsPaid L' := by
  intro run staffId
  rw [paidIn_extends hx hP]
  exact h run staffId

/-- What an unpay leaves of a run is worth nothing or more: what it takes back is no more than the
run stands at, or it takes back no more than nothing. -/
theorem RunsPaid.left (h : RunsPaid L) {ids : List Nat} (ht : TakesNoMore L ids) (run : Nat) (staffId : Id) :
    0 ≤ paidIn L run staffId fun n => decide (n ∉ unpays L ids) := by
  have hbefore := h run staffId
  have hsplit := paidIn_split L run staffId fun n => decide (n ∈ unpays L ids)
  simp only [decide_not]
  by_cases htaken : 0 < paidIn L run staffId fun n => decide (n ∈ unpays L ids)
  · have hle := ht run staffId htaken
    omega
  · omega

/-- What a move of several earnings keeps. -/
theorem RunsPaid.moveMany (h : RunsPaid L) (hk : EarningsKept L) {ids : List Nat} {move : Move} {run : Nat}
    (htaken : move = .unpay → TakesNoMore L ids)
    (hm : ClientBridge.moveMany L ids move run = .ok L') : RunsPaid L' := by
  obtain ⟨members, ready, hn, hready, hids, htotal, hm⟩ := hk.moveMany_ok hm
  intro r staffId
  have hother : move ≠ .pay → move ≠ .unpay → 0 ≤ paidIn L' r staffId fun _ => true := by
    intro hpay hunpay
    rw [hk.paidIn_moveAll hn hready (fun hu => absurd hu hunpay) hm]
    have hzero : (ready.map (paysNow move (if move = .pay then { run := some run } else {}) r staffId
        fun _ => true)).sum = 0 :=
      List.sum_eq_zero fun x hx => by
        obtain ⟨e, -, rfl⟩ := List.mem_map.1 hx
        exact if_neg fun hc => hpay hc.1
    rw [hzero, Int.add_zero]
    exact h r staffId
  cases move with
  | approve => exact hother (by simp) (by simp)
  | unapprove => exact hother (by simp) (by simp)
  | pay =>
    rw [hk.paidIn_moveAll hn hready (fun hu => by cases hu) hm, sum_paysNow]
    have htotal : 0 ≤ memberTotal ready staffId := memberTotal_nonneg (htotal rfl)
    have hbefore := h r staffId
    split <;> omega
  | unpay =>
    have hall := hk.moveAll hn hready hm
    have hkept := hk.advances hall.advances
    -- the payments undone count for nothing now, and those left are as they were
    rw [hkept.paidIn_of_undone (show ∀ n ∈ ready.map (·.id), _ from fun n hn => ?_)]
    · rw [hk.paidIn_moveAll hn hready (fun _ e he => by simp; exact ⟨e, he, rfl⟩) hm]
      have hzero : (ready.map (paysNow .unpay (if Move.unpay = .pay then { run := some run } else {}) r staffId
          fun n => decide (n ∉ ready.map (·.id)))).sum = 0 :=
        List.sum_eq_zero fun x hx => by
          obtain ⟨e, -, rfl⟩ := List.mem_map.1 hx
          exact if_neg fun hc => by cases hc.1
      rw [hzero, Int.add_zero, hids]
      exact h.left (htaken rfl) r staffId
    · obtain ⟨e, he, rfl⟩ := List.mem_map.1 hn
      obtain ⟨j, hj, hid, hearn, -⟩ := hall.advances.known hk (hready e he).known
      exact ⟨j, hj, hid, hearn, hall.status _ (List.mem_map_of_mem he)⟩

theorem RunsPaid.reversePlain (h : RunsPaid L) {j : LedgerJournal} {n : Nat}
    (hr : ClientBridge.reversePlain L j (.earningReversal n) = .ok L') : RunsPaid L' := by
  obtain ⟨rfl, -⟩ := post_ok hr
  refine h.of_extends (extends_write L _ _ _ fun _ => ⟨fun n i href => ?_, fun r href => ?_⟩) fun j hj => hj
  · cases href
  · cases href

theorem RunsPaid.cancelTip (h : RunsPaid L) (hk : EarningsKept L) {refundId memberId : Id}
    (hc : cancelReturnedTip L refundId memberId = .ok L') : RunsPaid L' := by
  unfold cancelReturnedTip at hc
  split at hc
  · cases hc
    exact h
  · next journal hfind =>
    split at hc
    · cases hc
      exact h
    · next tip hl =>
      obtain ⟨hid, hknown, hs⟩ := hk.load hl
      split at hc
      · split at hc
        · next happ =>
          obtain ⟨L₁, h₁, h₂⟩ := bind_ok hc
          have hstart : earningStatus L tip.id = Move.starts .unapprove := hid ▸ hs.symm.trans happ
          have h₁' : RunsPaid L₁ := by
            intro run staffId
            rw [hk.paidIn_move hknown hstart (fun hu => by cases hu) h₁, paysNow, if_neg (by simp), Int.add_zero]
            exact h run staffId
          exact h₁'.reversePlain h₂
        · exact h.reversePlain hc
      · cases hc
        exact h

theorem RunsPaid.clawBack (h : RunsPaid L) {ms : List Nat} (hx : ClawbacksWritten ms L L') : RunsPaid L' := by
  refine h.of_extends hx ?_
  rintro j ⟨m, -, ⟨c, -, -, hr, -⟩ | ⟨hr, -⟩, -⟩
  · rw [hr]
    simp
  · rw [hr]
    simp

theorem RunsPaid.step (h : RunsPaid L) (hk : EarningsKept L) (hc : ClawbacksKept L) {a : EarningAction}
    (hs : FairStep L a L') : RunsPaid L' := by
  obtain ⟨hs, hfair⟩ := hs
  cases hs with
  | @move ids move run L' hm => exact h.moveMany hk (fun hu => hfair ids run (by rw [hu])) hm
  | reverse hj he hr =>
    unfold reverseEarning at hr
    rw [hj] at hr
    simp only at hr
    split at hr
    · exact h.reversePlain hr
    · cases hr
      exact h
  | cancelTip ht => exact h.cancelTip hk ht
  | clawBack hb => exact h.clawBack (clawBackOn_kept hk hc hb).2.2
  | clawBackPackage hb => exact h.clawBack (clawBackOn_kept hk hc hb).2.2
  | @post q L' hq hr hp =>
    obtain ⟨rfl, -⟩ := post_ok hp
    have hplain : ∀ r : Ref, r.isStaged = true → q.ref ≠ r := by
      rintro r hst rfl
      rw [hq.ref] at hst
      cases hst
    exact h.of_extends (extends_write L q.ref q.info q.written fun _ =>
      ⟨fun n i => hplain _ rfl, fun r => hplain _ rfl⟩) fun j hj => hj

end

/-- **Every pay run stands at nothing or more** for every member, as long as no unpay takes
back more than that. -/
theorem pay_runs_safe {L : Ledger} {as : List EarningAction} (hrun : Run FairStep [] as L) (run : Nat)
    (staffId : Id) : 0 ≤ paidIn L run staffId fun _ => true := by
  have hinv := hrun.invariant (I := fun L => (EarningsKept L ∧ ClawbacksKept L) ∧ RunsPaid L)
    (fun L a L' h hs => ⟨earning_step h.1 hs.1, h.2.step h.1.1 h.1.2 hs⟩)
    ⟨earningsKept_nil, fun run staffId => le_refl 0⟩
  exact hinv.2 run staffId

/-- A deduction of 60.00 from the same member. -/
def deduction : Posting where
  event := .earning
  ref := .earningAdjustment 1
  legs := [leg .business .staffCost (-6000), legOf (.staff "sta_1") .payable 6000 .pending]
  subject := some (.staff "sta_1")
  metadata := { basis := some .adjustment }

def deducted : Ledger := (post earned deduction).toOption.get (by decide)

def deducted₁ : Ledger := (moveMany deducted [0, 1] .pay 1).toOption.get (by decide)

def deducted₂ : Ledger := (moveMany deducted₁ [0] .unpay 0).toOption.get (by decide)

theorem deducted_run : Run EarningStep [] [.post visitEarning, .post deduction, .move [0, 1] .pay 1] deducted₁ := by
  refine .cons (.post ⟨rfl, fun k hk => ?_, fun _ => ⟨rfl, "sta_1", 10000, none, rfl⟩⟩ rfl (eq_ok_get (by decide)))
    (.cons (.post ⟨rfl, fun k hk => ?_, fun _ => ⟨rfl, "sta_1", -6000, none, rfl⟩⟩ rfl (eq_ok_get (by decide)))
      (.cons (.move (eq_ok_get (by decide))) .nil))
  · cases hk
  · cases hk

/-- The run paid 40.00; with its earning undone, the deduction stands in it alone. -/
theorem deduction_left_alone :
    Run EarningStep [] [.post visitEarning, .post deduction, .move [0, 1] .pay 1, .move [0] .unpay 0] deducted₂ ∧
      paidIn deducted₁ 1 "sta_1" (fun _ => true) = 4000 ∧ paidIn deducted₂ 1 "sta_1" (fun _ => true) = -6000 :=
  ⟨.snoc deducted_run (.move (eq_ok_get (by decide))), by decide, by decide⟩

/-- Undone together, they leave the run at nothing. -/
theorem deducted_undone : 0 ≤ paidIn ((moveMany deducted₁ [1, 0] .unpay 0).toOption.get (by decide)) 1 "sta_1"
    fun _ => true := by
  have hfair : TakesNoMore deducted₁ [1, 0] := takesNoMore_of_paid (by decide)
  have hstep : ∀ {L a L'}, EarningStep L a L' → (∀ ids run, a ≠ .move ids .unpay run) → FairStep L a L' :=
    fun hs ha => ⟨hs, fun ids run he => absurd he (ha ids run)⟩
  have hrun : Run FairStep [] [.post visitEarning, .post deduction, .move [0, 1] .pay 1, .move [1, 0] .unpay 0]
      ((moveMany deducted₁ [1, 0] .unpay 0).toOption.get (by decide)) := by
    refine .cons (t := earned) (hstep (.post ⟨rfl, ?_, fun _ => ⟨rfl, "sta_1", 10000, none, rfl⟩⟩ rfl
      (eq_ok_get (by decide))) ?_) (.cons (t := deducted) (hstep (.post ⟨rfl, ?_, fun _ =>
        ⟨rfl, "sta_1", -6000, none, rfl⟩⟩ rfl (eq_ok_get (by decide))) ?_)
        (.cons (t := deducted₁) (hstep (.move (eq_ok_get (by decide))) ?_)
          (.cons ⟨.move (eq_ok_get (by decide)), fun ids run he => ?_⟩ .nil)))
    · intro k hk
      cases hk
    · intro ids run he
      cases he
    · intro k hk
      cases hk
    · intro ids run he
      cases he
    · intro ids run he
      cases he
    · cases he
      exact hfair
  exact pay_runs_safe hrun 1 "sta_1"

end ClientBridge
