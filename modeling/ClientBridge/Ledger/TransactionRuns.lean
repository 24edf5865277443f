import ClientBridge.Ledger.TransactionInvariant

/-!
# The ledger over any run of transactions

Whatever transactions post and reverse, in any interleaving, with savepoints rolled back and
transactions aborted anywhere: committed journals balance, one journal exists under a
reference, cached balances are the sums of their entries, and a journal and its reversal cancel
out (`ledger_integrity`).
-/

namespace ClientBridge

open Bookkeeping Runs

section
variable {π : Type} {s : LedgerStore π} {p : π} {w : Written}

/-! ## Entries on accounts the transaction has not moved -/

theorem TxWrites.unmoved (hw : TxWrites p s w) {a : LedgerAccount} (ha : w.versions a = none) :
    rowSum w.rows (onAccount a) = 0 :=
  rowSum_eq_zero fun r hr => by
    unfold onAccount
    refine decide_eq_false ?_
    rintro rfl
    exact hw.moved r hr ha

/-- The balance a transaction sees is that of the entries it sees. -/
theorem TxWrites.balance_eq (hw : TxWrites p s w) (a : LedgerAccount) :
    w.balance s.balances a = s.balances a + rowSum w.rows (onAccount a) := by
  unfold Written.balance
  cases ha : w.versions a with
  | none => rw [hw.unmoved ha, Int.add_zero, Option.getD_none]
  | some v => rw [Option.getD_some, (hw.versions a v ha).2]

/-! ## Inserting the next leg -/

variable {s' : LedgerStore π} {q : PostCall} {n i : Nat} {l : Leg}

theorem TxWrites.insert (hw : TxWrites p s w) (hphase : PhaseKnows p s w (.inserting q n i))
    (hl : q.posting.written[i]? = some l)
    (hunique : ∀ r ∈ s.rows ++ w.rows, ¬(r.ref = q.posting.ref ∧ r.leg = i)) (hs : Spares p s s')
    (hrows : s'.rows = s.rows) (hbalances : s'.balances = s.balances)
    (hlock : s'.locks (q.account l.key) = some p) (hflight : s'.inFlight q.posting.ref i = some p) :
    TxWrites p s' (w.insert s.balances (q.row n i l)) := by
  obtain ⟨hq, -, hissued, hnew, hi, old, hold, hbal, hids, hrev⟩ := hphase
  have hw' := hs.writes hw
  have hmem : ∀ r, r ∈ (w.insert s.balances (q.row n i l)).rows ↔ r ∈ w.rows ∨ r = q.row n i l := by
    intro r
    simp [Written.insert]
  have hversion : ∀ a, (w.insert s.balances (q.row n i l)).versions a =
      if a = q.account l.key then some (w.balance s.balances a + l.cents) else w.versions a := by
    intro a
    show Function.update w.versions _ _ a = _
    by_cases ha : a = q.account l.key
    · subst ha
      rw [if_pos rfl]
      exact Function.update_self _ _ _
    · rw [if_neg ha]
      exact Function.update_of_ne ha _ _
  refine ⟨?_, ?_, ?_, ?_, ?_, ?_, ?_, ?_⟩
  · intro r hr
    rcases (hmem r).1 hr with hr | rfl
    · exact hw'.issued r hr
    · exact ⟨q, hs.issued _ _ hissued, rfl, rfl, rfl⟩
  · intro r hr
    rcases (hmem r).1 hr with hr | rfl
    · exact hw'.flight r hr
    · exact hflight
  · intro r hr r' hr'
    rcases (hmem r).1 hr with hr | rfl
    · exact hw'.new r hr r' hr'
    · rw [hrows] at hr'
      exact hnew r' hr'
  · intro r hr r' hr' href hleg
    rcases (hmem r).1 hr with hr | rfl
    · rcases (hmem r').1 hr' with hr' | rfl
      · exact hw.unique r hr r' hr' href hleg
      · exact absurd ⟨href, hleg⟩ (hunique r (List.mem_append_right _ hr))
    · rcases (hmem r').1 hr' with hr' | rfl
      · exact absurd ⟨href.symm, hleg.symm⟩ (hunique r' (List.mem_append_right _ hr'))
      · rfl
  · intro r hr
    rcases (hmem r).1 hr with hr | rfl
    · obtain ⟨r₀, hr₀, hrest⟩ := hw.led r hr
      exact ⟨r₀, (hmem r₀).2 (.inl hr₀), hrest⟩
    · -- the first leg of the journal is this one, or was inserted before
      cases i with
      | zero => exact ⟨_, hr, rfl, rfl⟩
      | succ i =>
        obtain ⟨hlt, -⟩ := List.getElem?_eq_some_iff.1 hl
        obtain ⟨l₀, hl₀⟩ : ∃ l₀, q.posting.written[0]? = some l₀ :=
          ⟨_, List.getElem?_eq_getElem (show 0 < q.posting.written.length by omega)⟩
        refine ⟨q.row n 0 l₀, (hmem _).2 (.inl ?_), rfl, rfl⟩
        rw [hold]
        exact List.mem_append_right _ (mem_call_rows.2 ⟨0, l₀, by omega, hl₀, rfl⟩)
  · intro a v hv
    rw [hversion] at hv
    have hsum : rowSum (w.insert s.balances (q.row n i l)).rows (onAccount a) =
        rowSum w.rows (onAccount a) + if q.account l.key = a then l.cents else 0 := by
      show rowSum (w.rows ++ [q.row n i l]) (onAccount a) = _
      rw [rowSum_append, rowSum_cons, rowSum_nil, Int.add_zero]
      congr 1
      unfold onAccount
      show (if decide (q.account l.key = a) = true then l.cents else 0) = _
      simp only [decide_eq_true_eq]
    rw [hsum, hbalances]
    by_cases ha : a = q.account l.key
    · rw [if_pos ha] at hv
      cases hv
      rw [hw.balance_eq, if_pos ha.symm]
      exact ⟨ha ▸ hlock, by omega⟩
    · rw [if_neg ha] at hv
      obtain ⟨hlock', hval⟩ := hw.versions a v hv
      rw [if_neg fun h => ha h.symm, Int.add_zero]
      exact ⟨hs.locks a hlock', hval⟩
  · intro r hr
    rw [hversion]
    split
    · simp
    · next ha =>
      rcases (hmem r).1 hr with hr | rfl
      · exact hw.moved r hr
      · exact absurd rfl ha
  · intro x hx
    have hold' := hrev x hx
    show Reversed (s'.rows ++ (w.rows ++ [q.row n i l])) x
    rw [hrows, hold, ← List.append_assoc, ← List.append_assoc, List.append_assoc (s.rows ++ old)]
    have hempty : Reversed (s.rows ++ old ++ []) x := by
      rw [List.append_nil]
      exact hold'
    have hafter := hempty.insert (show ∀ r ∈ q.rows n i ++ [q.row n i l], _ from fun r hr r' hr' => ?_)
    · rw [List.append_nil] at hafter
      exact hafter
    · have hid : r.journalId = n := by
        rcases List.mem_append.1 hr with hr | hr
        · obtain ⟨k, l', -, -, rfl⟩ := mem_call_rows.1 hr
          rfl
        · rw [List.mem_singleton.1 hr]
          rfl
      rw [hid]
      rw [List.append_nil] at hr'
      rcases List.mem_append.1 hr' with hr' | hr'
      · exact hnew r' hr'
      · exact hids r' hr'

theorem PhaseKnows.insert (hphase : PhaseKnows p s w (.inserting q n i))
    (hl : q.posting.written[i]? = some l) (hs : Spares p s s') (hrows : s'.rows = s.rows) :
    PhaseKnows p s' (w.insert s.balances (q.row n i l)) (.inserting q n (i + 1)) := by
  obtain ⟨hq, hne, hissued, hnew, hi, old, hold, hbal, hids, hrev⟩ := hphase
  obtain ⟨hlt, -⟩ := List.getElem?_eq_some_iff.1 hl
  have hrows' : (w.insert s.balances (q.row n i l)).rows = w.rows ++ [q.row n i l] := rfl
  refine ⟨⟨hq.balanced, hq.nonempty, fun j hj => ?_⟩, hne, hs.issued _ _ hissued, ?_, hlt, old, ?_, hbal, hids, ?_⟩
  · obtain ⟨⟨r, hr, hid⟩, hsum⟩ := hq.reverses j hj
    rw [hrows, hrows', ← List.append_assoc]
    refine ⟨⟨r, List.mem_append_left _ hr, hid⟩, fun sel => ?_⟩
    rw [rowSum_append, @rowSum_ofJournal_eq_zero [q.row n i l], Int.add_zero]
    · exact hsum sel
    · intro r' hr' he
      rw [List.mem_singleton.1 hr'] at he
      have hjn : n = j := he
      exact hne (hjn ▸ hj)
  · rw [hrows]
    exact hnew
  · rw [hrows', hold, PostCall.rows_succ hl, List.append_assoc]
  · intro x hx
    rw [hrows]
    exact hrev x hx

/-! ## Finishing a journal -/

theorem rowSum_written (q : PostCall) (n : Nat) (sel : LedgerAccount → Option Subject → Bool) :
    rowSum (q.rows n q.posting.written.length) (ofJournal n sel) =
      sumOf (fun l => sel (q.account l.key) l.tag) q.posting.written := by
  rw [rowSum_rows, List.take_length]

theorem balanced_rows {q : PostCall} (h : net q.posting.written = 0) (n : Nat) :
    Balanced (q.rows n q.posting.written.length) := by
  intro m
  by_cases hm : m = n
  · subst hm
    rw [rowSum_written, sumOf_true, h]
  · refine rowSum_ofJournal_eq_zero (fun r hr he => ?_) _
    obtain ⟨k, l, -, -, rfl⟩ := mem_call_rows.1 hr
    exact hm he.symm

/-- The whole journal is written, and cancels the one it reversed. -/
theorem TxWrites.finish (hw : TxWrites p s w) (h : PhaseKnows p s w (.inserting q n q.posting.written.length)) :
    TxWrites p s { w with reversals := w.reversals ++ q.reverses.toList.map fun j => (j, n) } ∧ Balanced w.rows := by
  obtain ⟨hq, hne, hissued, hnew, hi, old, hold, hbal, hids, hrev⟩ := h
  refine ⟨⟨hw.issued, hw.flight, hw.new, hw.unique, hw.led, hw.versions, hw.moved, fun x hx => ?_⟩, ?_⟩
  · rcases List.mem_append.1 hx with hx | hx
    · exact hw.reversals x hx
    · cases hj : q.reverses with
      | none =>
        rw [hj] at hx
        cases hx
      | some j =>
        rw [hj] at hx
        obtain rfl : x = (j, n) := by simpa using hx
        obtain ⟨hjournal, hsum⟩ := hq.reverses j hj
        refine ⟨hjournal, ?_, fun sel => ?_⟩
        · obtain ⟨l, rest, hl⟩ := List.exists_cons_of_ne_nil hq.nonempty
          refine ⟨q.row n 0 l, List.mem_append_right _ ?_, rfl⟩
          show q.row n 0 l ∈ w.rows
          rw [hold]
          refine List.mem_append_right _ (mem_call_rows.2 ⟨0, l, ?_, ?_, rfl⟩)
          · rw [hl]
            simp
          · rw [hl]
            rfl
        · have hown : rowSum (s.rows ++ w.rows) (ofJournal n sel) =
              sumOf (fun l => sel (q.account l.key) l.tag) q.posting.written := by
            rw [hold, rowSum_append, rowSum_append, rowSum_ofJournal_eq_zero hnew, rowSum_ofJournal_eq_zero hids,
              rowSum_written]
            omega
          show rowSum (s.rows ++ w.rows) (ofJournal j sel) + rowSum (s.rows ++ w.rows) (ofJournal n sel) = 0
          rw [hown]
          exact hsum sel
  · rw [hold]
    exact hbal.append (balanced_rows hq.balanced n)

/-! ## Savepoints and commits -/

theorem Spares.commit {q' : π} (hne : q' ≠ p) (hw : TxWrites p s w) :
    Spares q' s (s.commit w) := by
  refine ⟨fun a ha => ha, fun r n hr => hr, fun n x hx => hx, ⟨w.rows, rfl, fun r hr => ⟨hw.new r hr, ?_⟩⟩, ?_⟩
  · obtain ⟨c, hc, -⟩ := hw.issued r hr
    exact ⟨p, c, hc, hne.symm⟩
  · intro a ha
    show w.balance s.balances a = s.balances a
    unfold Written.balance
    cases hv : w.versions a with
    | none => rfl
    | some v =>
      have hlock := (hw.versions a v hv).1
      rw [ha] at hlock
      exact absurd (Option.some.inj hlock) hne

theorem update_lock {q' : π} {a : LedgerAccount} (hfree : s.locks a = none ∨ s.locks a = some p)
    {b : LedgerAccount} (hb : s.locks b = some q') : Function.update s.locks a (some p) b = some q' := by
  by_cases hab : b = a
  · subst hab
    rw [Function.update_self]
    rcases hfree with hfree | hfree
    · rw [hfree] at hb
      cases hb
    · rw [← hfree, hb]
  · rw [Function.update_of_ne hab, hb]

theorem update_flight {q' : π} {r : Ref} {i : Nat} (hfree : s.inFlight r i = none) {r' : Ref} {i' : Nat}
    (h : s.inFlight r' i' = some q') :
    Function.update s.inFlight r (Function.update (s.inFlight r) i (some p)) r' i' = some q' := by
  by_cases hr : r' = r
  · subst hr
    rw [Function.update_self, Function.update_of_ne, h]
    rintro rfl
    rw [hfree] at h
    cases h
  · rw [Function.update_of_ne hr, h]

/-- A fresh id is no journal's yet. -/
theorem Spares.issue {q' : π} (hn : s.issued n = none) (x : π × PostCall) :
    Spares q' s { s with issued := Function.update s.issued n (some x) } := by
  refine .of_same rfl rfl (fun a ha => ha) (fun r n hr => hr) fun m y hm => ?_
  show Function.update s.issued n _ m = some y
  rw [Function.update_of_ne]
  · exact hm
  · rintro rfl
    rw [hn] at hm
    cases hm

theorem TxKnows.fresh (s : LedgerStore π) (p : π) : TxKnows p s .fresh := by
  refine ⟨⟨?_, ?_, ?_, ?_, ?_, ?_, ?_, ?_⟩, ?_, fun n => rfl, ?_, List.Pairwise.nil⟩ <;>
    simp [LedgerTx.fresh, Written.empty, Led]

section
variable [DecidableEq π]

theorem release_lock {a : LedgerAccount} {v : Savepoint} (h : s.locks a = some p) (ha : v.locks a = true) :
    (s.release p v).locks a = some p := by
  show (if s.locks a = some p ∧ v.locks a = false then none else s.locks a) = _
  rw [if_neg, h]
  rintro ⟨-, hf⟩
  rw [ha] at hf
  cases hf

/-- A savepoint's writes outlive the rollback to it, or to a later one. -/
theorem SavedWell.release {v u : Savepoint} (hu : SavedWell p s u) (hvu : Within v u) :
    SavedWell p (s.release p v) u := by
  refine ⟨⟨hu.writes.issued, fun r hr => ?_, hu.writes.new, hu.writes.unique, hu.writes.led, fun a x hx => ?_,
    hu.writes.moved, hu.writes.reversals⟩, hu.balanced, fun a ha => ?_, hu.versioned⟩
  · show (if s.inFlight r.ref r.leg = some p ∧ v.written.rows.all
      (fun e => decide (e.ref ≠ r.ref ∨ e.leg ≠ r.leg)) = true then none else s.inFlight r.ref r.leg) = _
    rw [if_neg]
    · exact hu.writes.flight r hr
    · rintro ⟨-, hall⟩
      have hr' := List.all_eq_true.1 hall r (hvu.1 r hr)
      simp at hr'
  · obtain ⟨hlock, hval⟩ := hu.writes.versions a x hx
    exact ⟨release_lock hlock (hvu.2 a (hu.versioned a (by rw [hx]; simp))), hval⟩
  · exact release_lock (hu.locks a ha) (hvu.2 a ha)

theorem Spares.release {q' : π} (hne : q' ≠ p) (v : Savepoint) : Spares q' s (s.release p v) := by
  refine .of_same rfl rfl (fun a ha => ?_) (fun r n hr => ?_) fun n x hx => hx
  · show (if s.locks a = some p ∧ v.locks a = false then none else s.locks a) = _
    rw [if_neg, ha]
    rintro ⟨hp, -⟩
    rw [ha] at hp
    exact hne (Option.some.inj hp)
  · show (if s.inFlight r n = some p ∧ _ then none else s.inFlight r n) = _
    rw [if_neg, hr]
    rintro ⟨hp, -⟩
    rw [hr] at hp
    exact hne (Option.some.inj hp)

theorem LedgerKeeps.release (h : LedgerKeeps s) (v : Savepoint) : LedgerKeeps (s.release p v) := by
  refine ⟨h.issued, fun r hr => ?_, h.unique, h.led, h.balanced, h.cached, h.reversals⟩
  show (if _ then none else s.inFlight r.ref r.leg) = none
  rw [h.settled r hr, ite_self]

theorem LedgerKeeps.commit (h : LedgerKeeps s) (hw : TxWrites p s w) (hbal : Balanced w.rows) :
    LedgerKeeps ((s.commit w).release p .start) := by
  refine ⟨?_, ?_, ?_, h.led.append hw.led, h.balanced.append hbal, ?_, ?_⟩
  · intro r hr
    exact hw.seen h hr
  · intro r hr
    show (if s.inFlight r.ref r.leg = some p ∧ List.all [] _ = true then none else s.inFlight r.ref r.leg) = none
    rcases List.mem_append.1 hr with hr | hr
    · rw [h.settled r hr, ite_self]
    · rw [if_pos ⟨hw.flight r hr, rfl⟩]
  · have hcross : ∀ r ∈ s.rows, ∀ r' ∈ w.rows, r.ref = r'.ref → r.leg = r'.leg → False := by
      intro r hr r' hr' href hleg
      have hflight := hw.flight r' hr'
      rw [← href, ← hleg, h.settled r hr] at hflight
      cases hflight
    intro r hr r' hr' href hleg
    rcases List.mem_append.1 hr with hr | hr
    · rcases List.mem_append.1 hr' with hr' | hr'
      · exact h.unique r hr r' hr' href hleg
      · exact (hcross r hr r' hr' href hleg).elim
    · rcases List.mem_append.1 hr' with hr' | hr'
      · exact (hcross r' hr' r hr href.symm hleg.symm).elim
      · exact hw.unique r hr r' hr' href hleg
  · intro a
    show w.balance s.balances a = rowSum (s.rows ++ w.rows) (onAccount a)
    rw [hw.balance_eq, rowSum_append, h.cached]
  · intro x hx
    show Reversed (s.rows ++ w.rows) x
    rcases List.mem_append.1 hx with hx | hx
    · have hold : Reversed (s.rows ++ []) x := by
        rw [List.append_nil]
        exact h.reversals x hx
      have hnew := hold.insert (show ∀ r ∈ w.rows, _ from fun r hr r' hr' => hw.new r hr r' (by simpa using hr'))
      rwa [List.append_nil] at hnew
    · exact hw.reversals x hx

/-! ## What every step keeps -/

variable {x x' : LedgerTx}

theorem LedgerStep.spares {q' : π} (hs : LedgerStep p s x s' x') (hne : q' ≠ p) (hx : TxKnows p s x) :
    Spares q' s s' := by
  have hrefl : Spares q' s s := .of_same rfl rfl (fun a ha => ha) (fun r n hr => hr) fun n x hx => hx
  cases hs with
  | post => exact hrefl
  | reverse => exact hrefl
  | lock _ _ hfree => exact .of_same rfl rfl (fun b hb => update_lock hfree hb) (fun r n hr => hr) fun n x hx => hx
  | cached => exact hrefl
  | locked => exact hrefl
  | found => exact hrefl
  | issue _ _ n hn => exact .issue hn _
  | insert _ _ _ hflight hfree =>
    exact .of_same rfl rfl (fun b hb => update_lock hfree hb) (fun r n hr => update_flight hflight hr) fun n x hx => hx
  | finish => exact hrefl
  | save => exact hrefl
  | releaseSave => exact hrefl
  | rollbackSave => exact .release hne _
  | commit =>
    have hcommit : Spares q' s (s.commit x.written) := .commit hne hx.writes
    have hrel : Spares q' (s.commit x.written) ((s.commit x.written).release p .start) := .release hne _
    refine ⟨fun a ha => hrel.locks a (hcommit.locks a ha), fun r n hr => hrel.inFlight r n (hcommit.inFlight r n hr),
      hcommit.issued, hcommit.rows, hcommit.balances⟩
  | abort => exact .release hne _

theorem LedgerStep.keeps (hs : LedgerStep p s x s' x') (h : LedgerKeeps s) (hx : TxKnows p s x) :
    LedgerKeeps s' := by
  cases hs with
  | post => exact h
  | reverse => exact h
  | lock => exact ⟨h.issued, h.settled, h.unique, h.led, h.balanced, h.cached, h.reversals⟩
  | cached => exact h
  | locked => exact h
  | found => exact h
  | issue _ _ n hn =>
    refine ⟨fun r hr => ?_, h.settled, h.unique, h.led, h.balanced, h.cached, h.reversals⟩
    obtain ⟨o, c, hc, hw⟩ := h.issued r hr
    refine ⟨o, c, ?_, hw⟩
    show Function.update s.issued n _ r.journalId = _
    rw [Function.update_of_ne]
    · exact hc
    · intro he
      rw [he, hn] at hc
      cases hc
  | @insert q n i l _ _ hunique _ _ =>
    refine ⟨h.issued, fun r hr => ?_, h.unique, h.led, h.balanced, h.cached, h.reversals⟩
    have hne := hunique r (List.mem_append_left _ hr)
    show Function.update s.inFlight q.posting.ref _ r.ref r.leg = none
    by_cases href : r.ref = q.posting.ref
    · have hleg : r.leg ≠ i := fun hleg => hne ⟨href, hleg⟩
      rw [href, Function.update_self, Function.update_of_ne hleg, ← href]
      exact h.settled r hr
    · rw [Function.update_of_ne href]
      exact h.settled r hr
  | finish => exact h
  | save => exact h
  | releaseSave => exact h
  | rollbackSave => exact h.release _
  | commit hidle _ =>
    refine h.commit hx.writes ?_
    have hphase := hx.phase
    rw [hidle] at hphase
    exact hphase
  | abort => exact h.release _

theorem LedgerStep.own (hs : LedgerStep p s x s' x') (h : LedgerKeeps s) (hx : TxKnows p s x) : TxKnows p s' x' := by
  have hphase := hx.phase
  cases hs with
  | post q hidle hq hstart =>
    rw [hidle] at hphase
    obtain ⟨-, hne, hnet⟩ := start_locks hstart
    exact ⟨hx.writes, hx.held, ⟨hphase, hnet, hne, fun j hj => by rw [hq] at hj; cases hj⟩, hx.saves, hx.nested⟩
  | reverse hidle hq hstart =>
    rw [hidle] at hphase
    exact ⟨hx.writes, hx.held, ⟨hphase, reverseCall_checked h hx.writes hq hstart⟩, hx.saves, hx.nested⟩
  | lock _ _ hfree =>
    have hspares : Spares p s { s with locks := Function.update s.locks _ (some p) } :=
      .of_same rfl rfl (fun b hb => update_lock hfree hb) (fun r n hr => hr) fun n x hx => hx
    exact hspares.knows hx
  | cached hlocking _ =>
    rw [hlocking] at hphase
    exact ⟨hx.writes, hx.held, hphase, hx.saves, hx.nested⟩
  | @locked q hlocking hlocks =>
    rw [hlocking] at hphase
    refine ⟨hx.writes, fun a ha => ?_, hphase, hx.saves, hx.nested⟩
    rcases Bool.or_eq_true _ _ ▸ ha with ha | ha
    · exact hx.held a ha
    · exact hlocks a (of_decide_eq_true ha)
  | found hlocked _ =>
    rw [hlocked] at hphase
    exact ⟨hx.writes, hx.held, hphase.1, hx.saves, hx.nested⟩
  | @issue q hlocked _ n hn =>
    have hx' := (Spares.issue hn (p, q)).knows hx
    have hphase' := hx'.phase
    rw [hlocked] at hphase'
    have hunused : ∀ r ∈ s.rows ++ x.written.rows, r.journalId ≠ n := by
      intro r hr he
      obtain ⟨o, c, hc, -⟩ := hx.writes.seen h hr
      rw [he, hn] at hc
      cases hc
    refine ⟨hx'.writes, hx'.held, ⟨hphase'.2, fun hj => ?_, Function.update_self _ _ _, fun r hr => ?_, by omega,
      x.written.rows, ?_, hphase'.1, fun r hr => ?_, hx.writes.reversals⟩, hx'.saves, hx'.nested⟩
    · obtain ⟨⟨r, hr, he⟩, -⟩ := hphase'.2.reverses n hj
      exact hunused r hr he
    · exact hunused r (List.mem_append_left _ hr)
    · show x.written.rows = x.written.rows ++ []
      rw [List.append_nil]
    · exact hunused r (List.mem_append_right _ hr)
  | @insert q n i l hins hl hunique hflight hfree =>
    rw [hins] at hphase
    have hspares : Spares p s
        { s with
          locks := Function.update s.locks (q.account l.key) (some p)
          inFlight := Function.update s.inFlight q.posting.ref
            (Function.update (s.inFlight q.posting.ref) i (some p)) } :=
      .of_same rfl rfl (fun b hb => update_lock hfree hb) (fun r n hr => update_flight hflight hr) fun n x hx => hx
    refine ⟨hx.writes.insert hphase hl hunique hspares rfl rfl (Function.update_self _ _ _) ?_,
      fun a ha => hspares.locks a (hx.held a ha), hphase.insert hl hspares rfl, fun v hv => ?_, hx.nested⟩
    · show Function.update s.inFlight _ _ _ _ = _
      rw [Function.update_self, Function.update_self]
    · obtain ⟨hsaved, hsub⟩ := hx.saves v hv
      exact ⟨hspares.saved hsaved, fun r hr => List.mem_append_left _ (hsub r hr)⟩
  | finish hins =>
    rw [hins] at hphase
    obtain ⟨hwrites, hbal⟩ := hx.writes.finish hphase
    exact ⟨hwrites, hx.held, hbal, hx.saves, hx.nested⟩
  | save hidle =>
    rw [hidle] at hphase
    refine ⟨hx.writes, hx.held, hx.phase, fun v hv => ?_, List.Pairwise.cons (fun v hv => ?_) hx.nested⟩
    · rcases List.mem_cons.1 hv with rfl | hv
      · refine ⟨⟨hx.writes, hphase, fun a ha => of_decide_eq_true ha, fun a ha => decide_eq_true ?_⟩, fun r hr => hr⟩
        obtain ⟨v, hv⟩ := Option.ne_none_iff_exists'.1 ha
        exact (hx.writes.versions a v hv).1
      · exact hx.saves v hv
    · obtain ⟨hsaved, hsub⟩ := hx.saves v hv
      exact ⟨hsub, fun a ha => decide_eq_true (hsaved.locks a ha)⟩
  | releaseSave hidle hv =>
    have hnested := hx.nested
    rw [hv] at hnested
    exact ⟨hx.writes, fun a ha => (by cases ha), hx.phase,
      fun u hu => hx.saves u (by rw [hv]; exact List.mem_cons_of_mem _ hu), (List.pairwise_cons.1 hnested).2⟩
  | @rollbackSave v saves hv =>
    have hnested := hx.nested
    rw [hv] at hnested
    obtain ⟨hwithin, hnested⟩ := List.pairwise_cons.1 hnested
    have hsaved : ∀ u ∈ v :: saves, SavedWell p s u := fun u hu => (hx.saves u (by rw [hv]; exact hu)).1
    have hself : SavedWell p (s.release p v) v :=
      (hsaved v List.mem_cons_self).release ⟨fun r hr => hr, fun a ha => ha⟩
    refine ⟨hself.writes, fun a ha => (by cases ha), hself.balanced, fun u hu => ⟨?_, (hwithin u hu).1⟩, hnested⟩
    exact (hsaved u (List.mem_cons_of_mem _ hu)).release (hwithin u hu)
  | commit => exact .fresh _ p
  | abort => exact .fresh _ p

theorem ledger_kept : Kept (LedgerStep (π := π)) LedgerKeeps TxKnows :=
  ⟨fun hs h hx => hs.keeps h hx, fun hs h hx => hs.own h hx, fun hs hne _ hx hy => (hs.spares hne hx).knows hy⟩

end

end

/-! ## Over any run -/

/-- What is committed, whatever the transactions did. -/
structure LedgerIntegrity {π : Type} (s : LedgerStore π) : Prop where
  balanced : ∀ n, rowSum s.rows (ofJournal n fun _ _ => true) = 0
  single : ∀ r ∈ s.rows, ∀ r' ∈ s.rows, r.account.business = r'.account.business → r.ref = r'.ref →
    r.journalId = r'.journalId
  cached : ∀ a, s.balances a = rowSum s.rows (onAccount a)
  accounts : ∀ x ∈ s.reversals, ∀ a, rowSum s.rows (ofJournal x.1 fun a' _ => decide (a' = a)) +
    rowSum s.rows (ofJournal x.2 fun a' _ => decide (a' = a)) = 0
  subjects : ∀ x ∈ s.reversals, ∀ subject category,
    rowSum s.rows (ofJournal x.1 fun a t => decide (t = some subject) && decide (a.key.category = category)) +
      rowSum s.rows (ofJournal x.2 fun a t => decide (t = some subject) && decide (a.key.category = category)) = 0
  once : ∀ x ∈ s.reversals, ∀ y ∈ s.reversals, ∀ r ∈ s.rows, ∀ r' ∈ s.rows, r.journalId = x.2 → r'.journalId = y.2 →
    r.ref = r'.ref → x.2 = y.2

section
variable {π : Type}

/-- Two journals under one reference would share their first leg's row. -/
theorem LedgerKeeps.single {s : LedgerStore π} (h : LedgerKeeps s) {r r' : EntryRow} (hr : r ∈ s.rows)
    (hr' : r' ∈ s.rows) (href : r.ref = r'.ref) : r.journalId = r'.journalId := by
  have hfirst : ∀ r ∈ s.rows, ∃ r₀ ∈ s.rows, r₀.leg = 0 ∧ r₀.journalId = r.journalId ∧ r₀.ref = r.ref := by
    intro r hr
    obtain ⟨r₀, hr₀, hleg, hid⟩ := h.led r hr
    obtain ⟨o, q, hq, hw⟩ := h.issued r hr
    obtain ⟨o', q', hq', hw'⟩ := h.issued r₀ hr₀
    rw [hid, hq] at hq'
    cases hq'
    exact ⟨r₀, hr₀, hleg, hid, hw'.ref.trans hw.ref.symm⟩
  obtain ⟨r₀, hr₀, hleg, hid, hsame⟩ := hfirst r hr
  obtain ⟨r₁, hr₁, hleg', hid', hsame'⟩ := hfirst r' hr'
  rw [← hid, ← hid']
  exact h.unique r₀ hr₀ r₁ hr₁ (hsame.trans (href.trans hsame'.symm)) (hleg.trans hleg'.symm)

variable [DecidableEq π]

/-- An empty ledger, and no transaction open. -/
def ledgerStart : World π (LedgerStore π) LedgerTx :=
  ⟨⟨[], fun _ => 0, [], fun _ => none, fun _ _ => none, fun _ => none⟩, fun _ => .fresh⟩

omit [DecidableEq π] in
theorem ledgerStart_knows : Knows LedgerKeeps TxKnows (ledgerStart : World π (LedgerStore π) LedgerTx) := by
  refine ⟨⟨?_, ?_, ?_, ?_, fun n => rfl, fun a => rfl, ?_⟩, fun p => .fresh _ p⟩ <;> simp [ledgerStart, Led]

/-- **The ledger keeps its integrity** over any interleaving of transactions. -/
theorem ledger_integrity {ps : List π} {w : World π (LedgerStore π) LedgerTx}
    (hrun : Run (Interleaved LedgerStep) ledgerStart ps w) : LedgerIntegrity w.store := by
  obtain ⟨h, -⟩ := ledger_kept.run hrun ledgerStart_knows
  refine ⟨h.balanced, fun r hr r' hr' _ => h.single hr hr', h.cached, fun x hx a => (h.reversals x hx).cancels _,
    fun x hx subject category => (h.reversals x hx).cancels _, ?_⟩
  intro x _ y _ r hr r' hr' hid hid' href
  rw [← hid, ← hid']
  exact h.single hr hr' href

/-- Accounts a transaction takes for held are locked by it, so its next post need not lock them. -/
theorem held_accounts_locked {ps : List π} {w : World π (LedgerStore π) LedgerTx}
    (hrun : Run (Interleaved LedgerStep) ledgerStart ps w) {p : π} {a : LedgerAccount}
    (ha : (w.place p).held a = true) : w.store.locks a = some p :=
  ((ledger_kept.run hrun ledgerStart_knows).2 p).held a ha

end

/-- A sale of 50.00. -/
def saleCall : PostCall where
  business := "biz_1"
  currency := "CAD"
  posting := {
    event := .sale
    ref := .payment "pay_1"
    legs := [leg .business .cash 5000, leg .business .revenue (-5000)]
    subject := some (.order "ord_1") }
  reverses := none

/-- The exact negation of `saleCall`'s journal. -/
def unsaleCall : PostCall where
  business := "biz_1"
  currency := "CAD"
  posting := {
    event := .reversal
    ref := .reversal (.payment "pay_1")
    legs := [⟨⟨.business, .cash, .plain⟩, -5000, some (.order "ord_1")⟩,
      ⟨⟨.business, .revenue, .plain⟩, 5000, some (.order "ord_1")⟩]
    source := some (.journal 0) }
  reverses := some 0

/-- The last transaction to end frees what it locked. -/
theorem LedgerStore.release_free {s : LedgerStore Bool} {p : Bool} (hlocks : ∀ a, s.locks a = none ∨ s.locks a = some p)
    (hflight : ∀ r n, s.inFlight r n = none ∨ s.inFlight r n = some p) :
    (∀ a, (s.release p .start).locks a = none) ∧ ∀ r n, (s.release p .start).inFlight r n = none := by
  constructor
  · intro a
    cases hlocks a with
    | inl h => simp [LedgerStore.release, h]
    | inr h => simp [LedgerStore.release, h, Savepoint.start]
  · intro r n
    cases hflight r n with
    | inl h => simp [LedgerStore.release, h]
    | inr h => simp [LedgerStore.release, h, Savepoint.start, Written.empty]

/-- One transaction posts a sale, and another reverses it. -/
theorem sale_reversed : ∃ w : World Bool (LedgerStore Bool) LedgerTx, w.store.reversals = [(0, 1)] ∧
    LedgerIntegrity w.store := by
  have hcash : saleCall.account ⟨.business, .cash, .plain⟩ ∈ saleCall.accounts := by decide
  have hrevenue : saleCall.account ⟨.business, .revenue, .plain⟩ ∈ saleCall.accounts := by decide
  have hsold : ∃ ps, ∃ w : World Bool (LedgerStore Bool) LedgerTx, Run (Interleaved LedgerStep) ledgerStart ps w ∧
      (w.place true).written.rows = saleCall.rows 0 2 ∧ (w.place true).written.reversals = [] ∧
      (w.place true).phase = .idle ∧ (w.place true).saves = [] ∧ w.place false = .fresh ∧
      w.store.rows = [] ∧ w.store.reversals = [] ∧ w.store.issued 1 = none ∧
      (∀ a, w.store.locks a = none ∨ w.store.locks a = some true) ∧
      (∀ r n, w.store.inFlight r n = none ∨ w.store.inFlight r n = some true) := by
    refine ⟨_, _, .cons (.from (p := true) rfl (.post saleCall rfl rfl (by decide)))
      (.cons (.from (p := true) rfl (.lock rfl hcash (.inl rfl)))
      (.cons (.from (p := true) rfl (.lock rfl hrevenue (.inl rfl)))
      (.cons (.from (p := true) rfl (.locked rfl (by decide)))
      (.cons (.from (p := true) rfl (.issue rfl (by decide) 0 rfl))
      (.cons (.from (p := true) rfl (.insert rfl rfl (by decide) rfl (.inr rfl)))
      (.cons (.from (p := true) rfl (.insert rfl rfl (by decide) rfl (.inr rfl)))
      (.cons (.from (p := true) rfl (.finish rfl)) .nil))))))), rfl, rfl, rfl, rfl, rfl, rfl, rfl, rfl, ?_, ?_⟩
    · intro a
      simp only [Function.update_apply]
      split_ifs <;> simp [ledgerStart]
    · intro r n
      simp only [Function.update_apply]
      by_cases hr : r = saleCall.posting.ref
      · rw [if_pos hr]
        rcases n with _ | _ | n <;> simp [ledgerStart]
      · simp [hr, ledgerStart]
  obtain ⟨ps, w, hrun, hwritten, hreversed, hphase, hsaves, hfalse, hrows, hnone, hissued, hlocks, hflight⟩ := hsold
  obtain ⟨hlocks, hflight⟩ := LedgerStore.release_free (s := w.store.commit (w.place true).written) hlocks hflight
  have hcommitted := hrun.append (.cons (.from (p := true) rfl (.commit hphase hsaves)) .nil)
  have hrows : ((w.store.commit (w.place true).written).release true .start).rows = saleCall.rows 0 2 := by
    show w.store.rows ++ (w.place true).written.rows = saleCall.rows 0 2
    rw [hrows, hwritten, List.nil_append]
  have hnone : ((w.store.commit (w.place true).written).release true .start).reversals = [] := by
    show w.store.reversals ++ (w.place true).written.reversals = []
    rw [hnone, hreversed, List.nil_append]
  have hissued : ((w.store.commit (w.place true).written).release true .start).issued 1 = none := hissued
  have hfalse : Function.update w.place true LedgerTx.fresh false = .fresh := by
    rw [Function.update_of_ne (by decide), hfalse]
  generalize (w.store.commit (w.place true).written).release true .start = s at *
  generalize Function.update w.place true LedgerTx.fresh = place at *
  obtain ⟨rows, balances, reversals, locks, inFlight, issued⟩ := s
  obtain rfl : rows = saleCall.rows 0 2 := hrows
  obtain rfl : reversals = [] := hnone
  obtain rfl : locks = fun _ => none := funext hlocks
  obtain rfl : inFlight = fun _ _ => none := by
    ext1 r
    exact funext (hflight r)
  have hreverse : reverseCall (saleCall.rows 0 2 ++ []) "biz_1" 0 (.reversal (.payment "pay_1")) .reversal none {} =
      some unsaleCall := rfl
  have hstart : unsaleCall.start (saleCall.rows 0 2 ++ []) = .locks := by decide
  have hlocked : ∀ a ∈ unsaleCall.accounts, Function.update (Function.update (fun _ => none)
      (saleCall.account ⟨.business, .cash, .plain⟩) (some false))
      (saleCall.account ⟨.business, .revenue, .plain⟩) (some false) a = some false := by decide
  have hnew : journalFor (saleCall.rows 0 2 ++ []) "biz_1" unsaleCall.posting.ref = none := by decide
  have hfirst : ∀ r ∈ saleCall.rows 0 2 ++ [], ¬(r.ref = unsaleCall.posting.ref ∧ r.leg = 0) := by decide
  have hsecond : ∀ r ∈ saleCall.rows 0 2 ++ unsaleCall.rows 1 1, ¬(r.ref = unsaleCall.posting.ref ∧ r.leg = 1) := by
    decide
  have hrun := hcommitted.append
    (.cons (.from (p := false) hfalse (.reverse rfl hreverse hstart))
    (.cons (.from (p := false) rfl (.lock rfl hcash (.inl rfl)))
    (.cons (.from (p := false) rfl (.lock rfl hrevenue (.inl rfl)))
    (.cons (.from (p := false) rfl (.locked rfl hlocked))
    (.cons (.from (p := false) rfl (.issue rfl hnew 1 hissued))
    (.cons (.from (p := false) rfl (.insert rfl rfl hfirst rfl (.inr rfl)))
    (.cons (.from (p := false) rfl (.insert rfl rfl hsecond rfl (.inr rfl)))
    (.cons (.from (p := false) rfl (.finish rfl))
    (.cons (.from (p := false) rfl (.commit rfl rfl)) .nil)))))))))
  exact ⟨_, rfl, ledger_integrity hrun⟩

end ClientBridge
