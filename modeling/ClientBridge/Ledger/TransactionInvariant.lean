import ClientBridge.Ledger.Transactions

/-!
# What transactions keep of the ledger

`LedgerKeeps` says of the committed entries that every journal balances, is written under one
reference of its own, and that the cached balances are the sums of the entries; `TxKnows` says
of an open transaction what it has written, which locks keep its balances from moving under
it, and where its `post` is.  A step keeps both, its own and those of the others.
-/

namespace ClientBridge

open Bookkeeping Runs

/-! ## Sums over entries -/

@[simp] theorem rowSum_nil (q : EntryRow → Bool) : rowSum [] q = 0 := rfl

@[simp] theorem rowSum_cons (r : EntryRow) (rows : List EntryRow) (q : EntryRow → Bool) :
    rowSum (r :: rows) q = (if q r then r.cents else 0) + rowSum rows q := by
  unfold rowSum
  rw [List.filter_cons]
  split <;> simp

@[simp] theorem rowSum_append (xs ys : List EntryRow) (q : EntryRow → Bool) :
    rowSum (xs ++ ys) q = rowSum xs q + rowSum ys q := by
  simp [rowSum]

theorem rowSum_eq_zero {rows : List EntryRow} {q : EntryRow → Bool} (h : ∀ r ∈ rows, q r = false) :
    rowSum rows q = 0 := by
  unfold rowSum
  rw [List.filter_eq_nil_iff.2 fun r hr => by simp [h r hr]]
  rfl

/-- Entries of one journal, on accounts and entities of choice. -/
def ofJournal (n : Nat) (sel : LedgerAccount → Option Subject → Bool) (r : EntryRow) : Bool :=
  decide (r.journalId = n) && sel r.account r.subject

def onAccount (a : LedgerAccount) (r : EntryRow) : Bool := decide (r.account = a)

theorem rowSum_ofJournal_eq_zero {rows : List EntryRow} {n : Nat} (h : ∀ r ∈ rows, r.journalId ≠ n)
    (sel : LedgerAccount → Option Subject → Bool) : rowSum rows (ofJournal n sel) = 0 :=
  rowSum_eq_zero fun r hr => by simp [ofJournal, h r hr]

/-- Every journal of these entries balances. -/
def Balanced (rows : List EntryRow) : Prop := ∀ n, rowSum rows (ofJournal n fun _ _ => true) = 0

theorem Balanced.append {xs ys : List EntryRow} (h : Balanced xs) (h' : Balanced ys) : Balanced (xs ++ ys) := by
  intro n
  rw [rowSum_append, h n, h' n, Int.zero_add]

/-- Every entry's journal has a first leg. -/
def Led (rows : List EntryRow) : Prop := ∀ r ∈ rows, ∃ r₀ ∈ rows, r₀.leg = 0 ∧ r₀.journalId = r.journalId

theorem Led.append {xs ys : List EntryRow} (h : Led xs) (h' : Led ys) : Led (xs ++ ys) := by
  intro r hr
  rcases List.mem_append.1 hr with hr | hr
  · obtain ⟨r₀, hr₀, hrest⟩ := h r hr
    exact ⟨r₀, List.mem_append_left _ hr₀, hrest⟩
  · obtain ⟨r₀, hr₀, hrest⟩ := h' r hr
    exact ⟨r₀, List.mem_append_right _ hr₀, hrest⟩

/-- A journal and one that reversed it cancel out on every account and for every entity. -/
structure Reversed (rows : List EntryRow) (x : Nat × Nat) : Prop where
  journal : ∃ r ∈ rows, r.journalId = x.1
  reversal : ∃ r ∈ rows, r.journalId = x.2
  cancels : ∀ sel, rowSum rows (ofJournal x.1 sel) + rowSum rows (ofJournal x.2 sel) = 0

/-- Other journals change nothing between the two. -/
theorem Reversed.insert {xs ys zs : List EntryRow} {x : Nat × Nat} (h : Reversed (xs ++ zs) x)
    (hne : ∀ r ∈ ys, ∀ r' ∈ xs ++ zs, r'.journalId ≠ r.journalId) : Reversed (xs ++ ys ++ zs) x := by
  have hsub : ∀ r ∈ xs ++ zs, r ∈ xs ++ ys ++ zs := by
    intro r hr
    rcases List.mem_append.1 hr with hr | hr
    · exact List.mem_append_left _ (List.mem_append_left _ hr)
    · exact List.mem_append_right _ hr
  have hzero : ∀ n, (∃ r ∈ xs ++ zs, r.journalId = n) → ∀ sel, rowSum ys (ofJournal n sel) = 0 := by
    rintro n ⟨r', hr', rfl⟩ sel
    exact rowSum_ofJournal_eq_zero (fun r hr he => hne r hr r' hr' he.symm) sel
  obtain ⟨⟨r, hr, hj⟩, ⟨r', hr', hn⟩, hc⟩ := h
  refine ⟨⟨r, hsub r hr, hj⟩, ⟨r', hsub r' hr', hn⟩, fun sel => ?_⟩
  have hsum := hc sel
  rw [rowSum_append, rowSum_append] at hsum
  rw [rowSum_append, rowSum_append, rowSum_append, rowSum_append, hzero _ ⟨r, hr, hj⟩, hzero _ ⟨r', hr', hn⟩]
  omega

/-! ## The entries of one call -/

/-- The entries of a call's first legs. -/
def PostCall.rows (q : PostCall) (n i : Nat) : List EntryRow :=
  (q.posting.written.take i).zipIdx.map fun x => q.row n x.2 x.1

theorem PostCall.rows_succ {q : PostCall} {n i : Nat} {l : Leg} (hl : q.posting.written[i]? = some l) :
    q.rows n (i + 1) = q.rows n i ++ [q.row n i l] := by
  obtain ⟨hi, rfl⟩ := List.getElem?_eq_some_iff.1 hl
  unfold PostCall.rows
  rw [List.take_add_one, hl, Option.toList_some, List.zipIdx_append, List.map_append]
  have hlen : (q.posting.written.take i).length = i := List.length_take_of_le (by omega)
  simp [hlen]

/-- What the call's first legs put on the selected accounts. -/
theorem rowSum_rows (q : PostCall) (n i : Nat) (sel : LedgerAccount → Option Subject → Bool) :
    rowSum (q.rows n i) (ofJournal n sel) =
      sumOf (fun l => sel (q.account l.key) l.tag) (q.posting.written.take i) := by
  unfold PostCall.rows
  generalize q.posting.written.take i = legs
  have hgo : ∀ (legs : List Leg) (k : Nat), rowSum ((legs.zipIdx k).map fun x => q.row n x.2 x.1) (ofJournal n sel) =
      sumOf (fun l => sel (q.account l.key) l.tag) legs := by
    intro legs
    induction legs with
    | nil => intro k; rfl
    | cons l legs ih =>
      intro k
      rw [List.zipIdx_cons, List.map_cons, rowSum_cons, ih, sumOf_cons]
      simp [ofJournal, PostCall.row]
  exact hgo legs 0

theorem mem_call_rows {q : PostCall} {n i : Nat} {r : EntryRow} :
    r ∈ q.rows n i ↔ ∃ k l, k < i ∧ q.posting.written[k]? = some l ∧ r = q.row n k l := by
  unfold PostCall.rows
  simp only [List.mem_map, Prod.exists, List.mem_zipIdx_iff_getElem?, List.getElem?_take]
  constructor
  · rintro ⟨l, k, hk, rfl⟩
    by_cases hki : k < i
    · rw [if_pos hki] at hk
      exact ⟨k, l, hki, hk, rfl⟩
    · rw [if_neg hki] at hk
      cases hk
  · rintro ⟨k, l, hki, hk, rfl⟩
    exact ⟨l, k, by rw [if_pos hki]; exact hk, rfl⟩

/-! ## The invariants -/

section
variable {π : Type}

/-- The entry is one its call writes. -/
structure PostCall.Writes (q : PostCall) (r : EntryRow) : Prop where
  business : r.account.business = q.business
  currency : r.account.currency = q.currency
  ref : r.ref = q.posting.ref

structure LedgerKeeps (s : LedgerStore π) : Prop where
  issued : ∀ r ∈ s.rows, ∃ p q, s.issued r.journalId = some (p, q) ∧ q.Writes r
  settled : ∀ r ∈ s.rows, s.inFlight r.ref r.leg = none
  unique : ∀ r ∈ s.rows, ∀ r' ∈ s.rows, r.ref = r'.ref → r.leg = r'.leg → r.journalId = r'.journalId
  led : Led s.rows
  balanced : Balanced s.rows
  cached : ∀ a, s.balances a = rowSum s.rows (onAccount a)
  reversals : ∀ x ∈ s.reversals, Reversed s.rows x

/-- What a transaction has written, now or at a savepoint. -/
structure TxWrites (p : π) (s : LedgerStore π) (w : Written) : Prop where
  issued : ∀ r ∈ w.rows, ∃ q, s.issued r.journalId = some (p, q) ∧ q.Writes r
  flight : ∀ r ∈ w.rows, s.inFlight r.ref r.leg = some p
  new : ∀ r ∈ w.rows, ∀ r' ∈ s.rows, r'.journalId ≠ r.journalId
  unique : ∀ r ∈ w.rows, ∀ r' ∈ w.rows, r.ref = r'.ref → r.leg = r'.leg → r.journalId = r'.journalId
  led : Led w.rows
  versions : ∀ a v, w.versions a = some v → s.locks a = some p ∧ v = s.balances a + rowSum w.rows (onAccount a)
  moved : ∀ r ∈ w.rows, w.versions r.account ≠ none
  reversals : ∀ x ∈ w.reversals, Reversed (s.rows ++ w.rows) x

/-- What is known of a call that passed its first checks. -/
structure PostCall.Checked (q : PostCall) (s : LedgerStore π) (w : Written) : Prop where
  balanced : net q.posting.written = 0
  nonempty : q.posting.written ≠ []
  reverses : ∀ j, q.reverses = some j → (∃ r ∈ s.rows ++ w.rows, r.journalId = j) ∧ ∀ sel,
    rowSum (s.rows ++ w.rows) (ofJournal j sel) + sumOf (fun l => sel (q.account l.key) l.tag) q.posting.written = 0

/-- Where a transaction's `post` is. -/
def PhaseKnows (p : π) (s : LedgerStore π) (w : Written) : PostPhase → Prop
  | .idle => Balanced w.rows
  | .locking q | .locked q => Balanced w.rows ∧ q.Checked s w
  | .inserting q n i => q.Checked s w ∧ q.reverses ≠ some n ∧ s.issued n = some (p, q) ∧
    (∀ r ∈ s.rows, r.journalId ≠ n) ∧ i ≤ q.posting.written.length ∧
    ∃ old, w.rows = old ++ q.rows n i ∧ Balanced old ∧ (∀ r ∈ old, r.journalId ≠ n) ∧
      ∀ x ∈ w.reversals, Reversed (s.rows ++ old) x

structure SavedWell (p : π) (s : LedgerStore π) (v : Savepoint) : Prop where
  writes : TxWrites p s v.written
  balanced : Balanced v.written.rows
  locks : ∀ a, v.locks a = true → s.locks a = some p
  versioned : ∀ a, v.written.versions a ≠ none → v.locks a = true

/-- A savepoint's writes and locks are among those of one taken later. -/
def Within (later earlier : Savepoint) : Prop :=
  (∀ r ∈ earlier.written.rows, r ∈ later.written.rows) ∧ ∀ a, earlier.locks a = true → later.locks a = true

structure TxKnows (p : π) (s : LedgerStore π) (x : LedgerTx) : Prop where
  writes : TxWrites p s x.written
  held : ∀ a, x.held a = true → s.locks a = some p
  phase : PhaseKnows p s x.written x.phase
  saves : ∀ v ∈ x.saves, SavedWell p s v ∧ ∀ r ∈ v.written.rows, r ∈ x.written.rows
  nested : x.saves.Pairwise Within

/-! ## Changes that leave a transaction alone -/

/-- The store moved, and what `q` holds of it did not. -/
structure Spares (q : π) (s s' : LedgerStore π) : Prop where
  locks : ∀ a, s.locks a = some q → s'.locks a = some q
  inFlight : ∀ r n, s.inFlight r n = some q → s'.inFlight r n = some q
  issued : ∀ n x, s.issued n = some x → s'.issued n = some x
  rows : ∃ C, s'.rows = s.rows ++ C ∧ ∀ r ∈ C, (∀ r' ∈ s.rows, r'.journalId ≠ r.journalId) ∧
    ∃ o c, s.issued r.journalId = some (o, c) ∧ o ≠ q
  balances : ∀ a, s.locks a = some q → s'.balances a = s.balances a

variable {s s' : LedgerStore π} {p : π} {w : Written}

/-- What others committed is none of its journals. -/
theorem Spares.apart (hs : Spares p s s') (hw : TxWrites p s w) : ∃ C, s'.rows = s.rows ++ C ∧
    (∀ r ∈ C, ∀ r' ∈ s.rows ++ w.rows, r'.journalId ≠ r.journalId) ∧
    ∀ r ∈ C, ∃ o c, s.issued r.journalId = some (o, c) ∧ o ≠ p := by
  obtain ⟨C, hC, hnew⟩ := hs.rows
  refine ⟨C, hC, fun r hr r' hr' he => ?_, fun r hr => (hnew r hr).2⟩
  rcases List.mem_append.1 hr' with hr' | hr'
  · exact (hnew r hr).1 r' hr' he
  · obtain ⟨o, c, ho, hne⟩ := (hnew r hr).2
    obtain ⟨c', hc', -⟩ := hw.issued r' hr'
    rw [he, ho] at hc'
    cases hc'
    exact hne rfl

theorem Spares.writes (hs : Spares p s s') (hw : TxWrites p s w) : TxWrites p s' w := by
  obtain ⟨C, hC, hapart, -⟩ := hs.apart hw
  refine ⟨?_, ?_, ?_, hw.unique, hw.led, ?_, hw.moved, ?_⟩
  · intro r hr
    obtain ⟨q, hq, hwr⟩ := hw.issued r hr
    exact ⟨q, hs.issued _ _ hq, hwr⟩
  · intro r hr
    exact hs.inFlight _ _ (hw.flight r hr)
  · intro r hr r' hr' he
    rw [hC] at hr'
    rcases List.mem_append.1 hr' with hr' | hr'
    · exact hw.new r hr r' hr' he
    · exact hapart r' hr' r (List.mem_append_right _ hr) he.symm
  · intro a v hv
    obtain ⟨hlock, hval⟩ := hw.versions a v hv
    exact ⟨hs.locks a hlock, by rw [hs.balances a hlock]; exact hval⟩
  · intro x hx
    rw [hC]
    exact (hw.reversals x hx).insert hapart

theorem Spares.checked (hs : Spares p s s') (hw : TxWrites p s w) {q : PostCall} (hq : q.Checked s w) :
    q.Checked s' w := by
  obtain ⟨C, hC, hapart, -⟩ := hs.apart hw
  refine ⟨hq.balanced, hq.nonempty, fun j hj => ?_⟩
  obtain ⟨⟨r, hr, rfl⟩, hsum⟩ := hq.reverses j hj
  have hzero : ∀ sel, rowSum C (ofJournal r.journalId sel) = 0 := fun sel =>
    rowSum_ofJournal_eq_zero (fun r' hr' he => hapart r' hr' r hr he.symm) sel
  rw [hC]
  refine ⟨⟨r, ?_, rfl⟩, fun sel => ?_⟩
  · rcases List.mem_append.1 hr with hr | hr
    · exact List.mem_append_left _ (List.mem_append_left _ hr)
    · exact List.mem_append_right _ hr
  · have hold := hsum sel
    rw [rowSum_append] at hold
    rw [rowSum_append, rowSum_append, hzero]
    omega

theorem Spares.phase (hs : Spares p s s') (hw : TxWrites p s w) {phase : PostPhase}
    (h : PhaseKnows p s w phase) : PhaseKnows p s' w phase := by
  cases phase with
  | idle => exact h
  | locking q => exact ⟨h.1, hs.checked hw h.2⟩
  | locked q => exact ⟨h.1, hs.checked hw h.2⟩
  | inserting q n i =>
    obtain ⟨hq, hne, hissued, hnew, hi, old, hold, hbal, hids, hrev⟩ := h
    obtain ⟨C, hC, hapart, hother⟩ := hs.apart hw
    refine ⟨hs.checked hw hq, hne, hs.issued _ _ hissued, ?_, hi, old, hold, hbal, hids, fun x hx => ?_⟩
    · intro r hr he
      rw [hC] at hr
      rcases List.mem_append.1 hr with hr | hr
      · exact hnew r hr he
      · obtain ⟨o, c, ho, hne⟩ := hother r hr
        rw [he, hissued] at ho
        cases ho
        exact hne rfl
    · rw [hC]
      refine (hrev x hx).insert fun r hr r' hr' => hapart r hr r' ?_
      rw [hold]
      rcases List.mem_append.1 hr' with hr' | hr'
      · exact List.mem_append_left _ hr'
      · exact List.mem_append_right _ (List.mem_append_left _ hr')

theorem Spares.saved (hs : Spares p s s') {v : Savepoint} (hv : SavedWell p s v) : SavedWell p s' v :=
  ⟨hs.writes hv.writes, hv.balanced, fun a ha => hs.locks a (hv.locks a ha), hv.versioned⟩

theorem Spares.knows (hs : Spares p s s') {x : LedgerTx} (hx : TxKnows p s x) : TxKnows p s' x :=
  ⟨hs.writes hx.writes, fun a ha => hs.locks a (hx.held a ha), hs.phase hx.writes hx.phase,
    fun v hv => ⟨hs.saved (hx.saves v hv).1, (hx.saves v hv).2⟩, hx.nested⟩

/-- Only locks, inserts and ids were added. -/
theorem Spares.of_same (hrows : s'.rows = s.rows) (hbalances : s'.balances = s.balances)
    (hlocks : ∀ a, s.locks a = some p → s'.locks a = some p)
    (hflight : ∀ r n, s.inFlight r n = some p → s'.inFlight r n = some p)
    (hissued : ∀ n x, s.issued n = some x → s'.issued n = some x) : Spares p s s' :=
  ⟨hlocks, hflight, hissued, ⟨[], by rw [hrows, List.append_nil], by simp⟩, fun a _ => by rw [hbalances]⟩

end

/-! ## Checks of a call -/

section
variable {π : Type} {s : LedgerStore π} {p : π} {w : Written}

theorem start_locks {rows : List EntryRow} {q : PostCall} (h : q.start rows = .locks) :
    journalFor rows q.business q.posting.ref = none ∧ q.posting.written ≠ [] ∧ net q.posting.written = 0 := by
  unfold PostCall.start at h
  split at h
  · cases h
  · split at h
    · cases h
    · next hnone =>
      split at h
      · cases h
      · next hne =>
        split at h
        · cases h
        · next hnet => exact ⟨by simpa using hnone, hne, not_not.1 hnet⟩

/-- The entries a transaction sees are those of calls. -/
theorem TxWrites.seen (hw : TxWrites p s w) (h : LedgerKeeps s) {r : EntryRow} (hr : r ∈ s.rows ++ w.rows) :
    ∃ o q, s.issued r.journalId = some (o, q) ∧ q.Writes r := by
  rcases List.mem_append.1 hr with hr | hr
  · exact h.issued r hr
  · obtain ⟨q, hq⟩ := hw.issued r hr
    exact ⟨p, q, hq⟩

/-- What `reverse` posts takes back its journal, whatever is selected of it. -/
theorem reverseCall_checked (h : LedgerKeeps s) (hw : TxWrites p s w) {q : PostCall} {business : Id} {j : Nat}
    {ref : Ref} {event : EntryEvent} {source : Option Source} {metadata : Metadata}
    (hq : reverseCall (s.rows ++ w.rows) business j ref event source metadata = some q)
    (hstart : q.start (s.rows ++ w.rows) = .locks) : q.Checked s w := by
  obtain ⟨-, hne, hnet⟩ := start_locks hstart
  unfold reverseCall at hq
  split at hq
  · cases hq
  · next first rest hrows =>
    have hmem : ∀ r ∈ first :: rest, r ∈ s.rows ++ w.rows ∧ r.account.business = business ∧ r.journalId = j := by
      intro r hr
      rw [← hrows, List.mem_filter, Bool.and_eq_true, decide_eq_true_eq, decide_eq_true_eq] at hr
      exact hr
    obtain ⟨hfirst, hbusiness, hid⟩ := hmem first List.mem_cons_self
    -- every entry of the journal is of its business and currency
    have hsame : ∀ r ∈ s.rows ++ w.rows, r.journalId = j →
        r.account = ⟨first.account.business, first.account.currency, r.account.key⟩ := by
      intro r hr hj
      obtain ⟨o, c, hc, hwrites⟩ := hw.seen h hr
      obtain ⟨o', c', hc', hwrites'⟩ := hw.seen h hfirst
      rw [hj] at hc
      rw [hid, hc] at hc'
      cases hc'
      rw [hwrites'.business, hwrites'.currency, ← hwrites.business, ← hwrites.currency]
    have hfilter : (s.rows ++ w.rows).filter (fun r => decide (r.journalId = j)) = first :: rest := by
      rw [← hrows]
      refine List.filter_congr fun r hr => ?_
      by_cases hj : r.journalId = j
      · have hb : r.account.business = business := by rw [hsame r hr hj, hbusiness]
        simp [hj, hb]
      · simp [hj]
    cases hq
    refine ⟨hnet, hne, fun j' hj' => ?_⟩
    cases hj'
    refine ⟨⟨first, hfirst, hid⟩, fun sel => ?_⟩
    have hsum : rowSum (s.rows ++ w.rows) (ofJournal j sel) =
        rowSum (first :: rest) fun r => sel r.account r.subject := by
      rw [← hfilter, rowSum, rowSum, List.filter_filter]
      congr 2
      refine List.filter_congr fun r _ => ?_
      rw [Bool.and_comm]
      rfl
    rw [hsum, sumOf_tagged]
    clear hsum hrows hfilter hne hnet hstart
    generalize hall : first :: rest = rows at hmem
    clear hall
    induction rows with
    | nil => rfl
    | cons r rows ih =>
      have ih := ih fun r' hr' => hmem r' (List.mem_cons_of_mem _ hr')
      have hr := hsame r (hmem r List.mem_cons_self).1 (hmem r List.mem_cons_self).2.2
      rw [List.map_cons, rowSum_cons, sumOf_cons]
      simp only [Option.or_none, PostCall.account, hbusiness] at ih ⊢ hr
      rw [← hr]
      split <;> omega

end

end ClientBridge
