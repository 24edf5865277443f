import ClientBridge.Sync.OutboxSteps

/-!
# The outbox over any run

Tabs edit and upload in any order, the server answers what it likes, and any tab stops anywhere.
-/

namespace ClientBridge

open Runs

section
variable {π : Type} {ok : List HoursEvent → WeekPost → Int → Prop} {p q : π} {s s' : OutboxStore} {x x' y : UploadPlace}

/-- What a tab knows of the row it has in hand. -/
def UploadKnows (log : List HoursEvent) : UploadPlace → Prop
  | .idle | .ready => True
  | .unseen r | .probing r => ∃ v, .accepted r.id v ∈ log
  | .claimed r => .claimed r ∈ log
  | .posting r q => .claimed r ∈ log ∧ .posted q ∈ log ∧ q.body = r.payload ∧ q.member = r.member

theorem UploadKnows.mono {log log' : List HoursEvent} (h : UploadKnows log x) (hsub : log ⊆ log') : UploadKnows log' x := by
  cases x with
  | idle | ready => trivial
  | unseen r | probing r =>
    obtain ⟨v, hv⟩ := h
    exact ⟨v, hsub hv⟩
  | claimed r => exact hsub h
  | posting r q => exact ⟨hsub h.1, hsub h.2.1, h.2.2⟩

theorem OutboxStep.log_append (hs : OutboxStep ok p s x s' x') : ∃ es, s'.log = s.log ++ es := by
  cases hs with
  | enqueue | discardHours | discardQueue | claim | post | accept => exact ⟨_, rfl⟩
  | retryNow | replicate | pass | unseen | probe | reachable | unreachable | none | retry | reject | stop =>
    exact ⟨[], (List.append_nil _).symm⟩

theorem OutboxStep.log_subset (hs : OutboxStep ok p s x s' x') : s.log ⊆ s'.log := by
  obtain ⟨es, hes⟩ := hs.log_append
  rw [hes]
  exact List.subset_append_left _ _

/-- What a claim finds is a row that may go, once the observed rows are gone. -/
theorem Device.claim_cases {d d' : Device} {now : Int} {o : Option OutboxRow} (h : d.claim now = (d', o)) :
    (o = none ∧ d' = d.observed.foldl Device.settle d) ∨
    ∃ r ∈ (d.observed.foldl Device.settle d).outbox, r.mayGo (d.observed.foldl Device.settle d) now = true ∧
      o = some (r.attempt (d.observed.foldl Device.settle d) now) ∧
      d' = (d.observed.foldl Device.settle d).update r.id fun _ => r.attempt (d.observed.foldl Device.settle d) now := by
  unfold Device.claim at h
  dsimp only at h
  split at h
  · cases h
    exact .inl ⟨rfl, rfl⟩
  · rename_i r hnext
    cases h
    have hgo := List.find?_some hnext
    exact .inr ⟨r, List.mem_of_find?_eq_some hnext, hgo, rfl, rfl⟩

theorem OutboxStep.keeps (hs : OutboxStep ok p s x s' x') (h : OutboxKeeps s.device.outbox s.log)
    (hx : UploadKnows s.log x) : OutboxKeeps s'.device.outbox s'.log := by
  cases hs with
  | enqueue e drawn hnew hd =>
    refine h.enqueue (fun r hr hid => ?_) hd
    exact hnew _ hr (congrArg some hid)
  | discardHours m hd => exact h.discardHours hd
  | discardQueue hd => exact h.discardGroups hd
  | retryNow => exact h.retryNow
  | replicate | pass | unseen | reachable | stop => exact h
  | probe now => exact h.postpone _ _
  | unreachable => exact h.forget hx
  | none now hd =>
    have hsettled := h.settleAll fun x hx => h.observed hx
    obtain ⟨-, rfl⟩ | ⟨r, -, -, ho, -⟩ := Device.claim_cases hd
    · exact hsettled
    · cases ho
  | claim now hd =>
    have hsettled := h.settleAll fun x hx => h.observed hx
    obtain ⟨ho, -⟩ | ⟨r, hr, hgo, ho, rfl⟩ := Device.claim_cases hd
    · cases ho
    · cases ho
      exact hsettled.attempt hr hgo
  | post user => exact h.posted hx user
  | accept revision hok => exact h.accept hx.1 revision
  | retry code retryAt => exact h.retry _ _ _
  | reject code => exact h.reject hx.1 code

theorem OutboxStep.own (hs : OutboxStep ok p s x s' x') (h : OutboxKeeps s.device.outbox s.log)
    (hx : UploadKnows s.log x) : UploadKnows s'.log x' := by
  have hsub := hs.log_subset
  cases hs with
  | enqueue | discardHours | discardQueue | retryNow | replicate | probe => exact hx.mono hsub
  | pass | reachable | unreachable | none | accept | retry | reject | stop => trivial
  | unseen now hr =>
    have hstate := List.find?_some hr
    rw [decide_eq_true_iff] at hstate
    obtain ⟨v, -, hv⟩ := (h.row _ (List.mem_of_find?_eq_some hr)).accepted hstate.1
    exact ⟨v, hv⟩
  | claim now hd => exact List.mem_append_right _ List.mem_cons_self
  | post user => exact ⟨hsub hx, List.mem_append_right _ List.mem_cons_self, rfl, rfl⟩

theorem outbox_kept : Kept (OutboxStep (π := π) ok) (fun s => OutboxKeeps s.device.outbox s.log)
    fun _ s x => UploadKnows s.log x :=
  ⟨fun hs h hx => hs.keeps h hx, fun hs h hx => hs.own h hx, fun hs _ _ _ hy => hy.mono hs.log_subset⟩

/-- An attempted payload is the claimed one ever after. -/
theorem TableKeeps.payload_frozen {rows rows' : List OutboxRow} {log log' : List HoursEvent} (h : TableKeeps rows log)
    (h' : TableKeeps rows' log') (hsub : log ⊆ log') {r r' : OutboxRow} (hr : r ∈ rows) (hr' : r' ∈ rows')
    (hid : r'.id = r.id) (hcount : 0 < r.attemptCount) : r'.payload = r.payload := by
  obtain ⟨c, hc, hcid, hpayload, -⟩ := (h.row r hr).claimed hcount
  have hcount' := h'.attempted hr' (hsub hc) (hcid.trans hid.symm)
  obtain ⟨c', hc', hcid', hpayload', -⟩ := (h'.row r' hr').claimed hcount'
  rw [← hpayload, ← hpayload']
  exact (h'.history.frozen c' c hc' (hsub hc) (hcid'.trans (hid.trans hcid.symm))).1

end

/-! ## No edit is lost -/

/-- Rows that form one chain: each link leads to the row right before. -/
def OneChain (rows : List OutboxRow) : Prop :=
  ∀ pre r post, rows = pre ++ r :: post → r.predecessor = pre.getLast?.map (·.id)

structure OutboxSafe (s : OutboxStore) : Prop where
  sequences : s.device.outbox.Pairwise fun a b => a.sequence < b.sequence
  /-- A row links the row right before, or nothing once only accepted rows are before it. -/
  linked : ∀ m pre r post, rowsOf s.device.outbox m = pre ++ r :: post →
    r.predecessor = pre.getLast?.map (·.id) ∨ r.predecessor = none ∧ ∀ a ∈ pre, a.state = .accepted
  /-- Only the last row of a member may be queued and unattempted. -/
  unattempted : ∀ m pre r post, rowsOf s.device.outbox m = pre ++ r :: post → r.state = .queued → r.attemptCount = 0 →
    post = []
  /-- The newest days stay until they are accepted, or the week is discarded or repaired. -/
  newest : ∀ pre r post, s.log = pre ++ .stored r :: post → (∀ r', .stored r' ∈ post → r'.member ≠ r.member) →
    .discarded r.member ∉ post → HasDays s.device.outbox s.log r.member r.id r.payload.days

theorem newestOf_last {log pre post : List HoursEvent} {r : OutboxRow} (hlog : log = pre ++ .stored r :: post)
    (hstored : ∀ r', .stored r' ∈ post → r'.member ≠ r.member) (hdiscarded : .discarded r.member ∉ post) :
    newestOf log r.member = some r := by
  subst hlog
  induction post using List.reverseRecOn with
  | nil => rw [newestOf_snoc]; exact if_pos rfl
  | append_singleton post e ih =>
    have hlast := ih (fun r' hr' => hstored r' (List.mem_append_left _ hr')) fun h => hdiscarded (List.mem_append_left _ h)
    rw [← List.cons_append, ← List.append_assoc, newestOf_snoc]
    cases e with
    | stored r' =>
      have hne := hstored r' (by simp)
      dsimp only
      rwa [if_neg hne]
    | discarded m =>
      have hne : m ≠ r.member := by
        rintro rfl
        exact hdiscarded (by simp)
      dsimp only
      rwa [if_neg hne]
    | claimed | posted | accepted | applied | answered | changed => exact hlast

theorem OutboxKeeps.safe {s : OutboxStore} (h : OutboxKeeps s.device.outbox s.log) : OutboxSafe s where
  sequences := h.sequences
  linked m pre r post hl := by
    have hchain := h.chains m
    rw [hl] at hchain
    obtain hnone | hlink := hchain.linked.append_cons
    · exact .inr ⟨hnone, fun a ha => pairwise_iff_split.1 hchain.settled pre r post rfl a ha (.inl hnone)⟩
    · rw [Option.or_none] at hlink
      exact .inl hlink
  unattempted m pre r post hl _ hcount := by
    rcases post with _ | ⟨b, post⟩
    · rfl
    · have hpos := pairwise_iff_split.1 (h.chains m).attempted (pre ++ [r]) b post (by simp [hl]) r (by simp)
      omega
  newest pre r post hlog hstored hdiscarded := h.newest r.member r (newestOf_last hlog hstored hdiscarded)

section
variable {π : Type} [DecidableEq π]

/-- A device with an empty outbox. -/
def outboxStart (owner deviceId : Option String) (revisions : Member → Option Int) : World π OutboxStore UploadPlace :=
  ⟨⟨⟨owner, deviceId, [], revisions⟩, []⟩, fun _ => .idle⟩

theorem outboxKeeps_start : OutboxKeeps [] [] := by
  refine ⟨⟨List.nodup_nil, .nil, fun m => .nil, by simp, ?_⟩, fun m r hr => by cases hr⟩
  constructor <;> simp

/-- **No week edit is lost or duplicated on the device**, and what was attempted does not change. -/
theorem week_edits_kept {owner deviceId : Option String} {revisions : Member → Option Int} {ps : List π}
    {w : World π OutboxStore UploadPlace}
    (hrun : Run (Interleaved (OutboxStep fun _ _ _ => True)) (outboxStart owner deviceId revisions) ps w) :
    OutboxSafe w.store ∧ ∀ {qs w'}, Run (Interleaved (OutboxStep fun _ _ _ => True)) w qs w' →
      ∀ r ∈ w.store.device.outbox, 0 < r.attemptCount → ∀ r' ∈ w'.store.device.outbox, r'.id = r.id →
        r'.payload = r.payload := by
  have hknows := outbox_kept.run hrun ⟨outboxKeeps_start, fun _ => trivial⟩
  refine ⟨hknows.1.safe, fun {qs w'} hrun' r hr hcount r' hr' hid => ?_⟩
  have hknows' := outbox_kept.run hrun' hknows
  have hsub : w.store.log ⊆ w'.store.log :=
    hrun'.invariant (I := fun u => w.store.log ⊆ u.store.log)
      (fun _ _ _ hlog hs => by
        cases hs with
        | step hs => exact fun _ he => hs.log_subset (hlog he)) fun _ he => he
  exact hknows.1.toTableKeeps.payload_frozen hknows'.1.toTableKeeps hsub hr hr' hid hcount

end

/-! ## A row forgotten in the middle -/

def amy : Member := ⟨"biz_1", "staff_1"⟩

/-- Amy's week, open from Monday to `last`. -/
def weekTo (last : Nat) : List WeekDay := (List.range 7).map fun n =>
  if n ≤ last then ⟨n, true, some "09:00:00", some "17:00:00"⟩ else ⟨n, false, none, none⟩

/-- Her `n`th edit, made after `previous`. -/
def amyEdit (n : Nat) (previous : Option OutboxRow) : HoursEdit :=
  ⟨amy, 0, weekTo n, weekTo 4, false, previous.map fun r => (r.id, r.payload)⟩

def drawnAt (id : String) : Drawn := ⟨id, "dev_1", "2026-01-01T00:00:00Z"⟩

def amyRow (n : Nat) (previous : Option OutboxRow) (id : String) : OutboxRow :=
  (amyEdit n previous).row previous "user_1" "dev_1" (drawnAt id) (n + 1)

/-- Two weeks accepted, a third stored after them; then the server says that the member is out of
reach, but only of the second. -/
theorem middle_forgotten : ∃ ps, ∃ w : World Bool OutboxStore UploadPlace,
    Run (Interleaved (OutboxStep fun _ _ _ => True)) (outboxStart (some "user_1") (some "dev_1") fun _ => none) ps w ∧
      (rowsOf w.store.device.outbox amy).map (fun r => (r.id, r.predecessor)) = [("op_1", none), ("op_3", none)] :=
  ⟨_, _, .cons (.from (p := true) rfl (.enqueue (amyEdit 0 none) (drawnAt "op_1") (by decide) rfl))
    (.cons (.from (p := true) rfl (.pass 0 rfl))
    (.cons (.from (p := true) rfl (.claim 0 rfl))
    (.cons (.from (p := true) rfl (.post "user_1"))
    (.cons (.from (p := true) rfl (.accept 1 trivial))
    (.cons (.from (p := true) rfl (.enqueue (amyEdit 1 (some (amyRow 0 none "op_1"))) (drawnAt "op_2") (by decide) rfl))
    (.cons (.from (p := true) rfl (.pass 10000 rfl))
    (.cons (.from (p := true) rfl (.claim 10000 rfl))
    (.cons (.from (p := true) rfl (.post "user_1"))
    (.cons (.from (p := true) rfl (.accept 2 trivial))
    (.cons (.from (p := true) rfl (.enqueue (amyEdit 2 (some (amyRow 1 (some (amyRow 0 none "op_1")) "op_2")))
      (drawnAt "op_3") (by decide) rfl))
    (.cons (.from (p := true) rfl (.unseen 20000 rfl))
    (.cons (.from (p := true) rfl (.probe 20000))
    (.cons (.from (p := true) rfl .reachable)
    (.cons (.from (p := false) rfl (.unseen 30000 rfl))
    (.cons (.from (p := false) rfl (.probe 30000))
    (.cons (.from (p := false) rfl .unreachable) .nil)))))))))))))))), rfl⟩

/-- The third week's row is linked to nothing, and is not the first. -/
theorem week_chain_broken : ¬ ∀ (ps : List Bool) (w : World Bool OutboxStore UploadPlace),
    Run (Interleaved (OutboxStep fun _ _ _ => True)) (outboxStart (some "user_1") (some "dev_1") fun _ => none) ps w →
      ∀ m, OneChain (rowsOf w.store.device.outbox m) := by
  intro h
  obtain ⟨ps, w, hrun, hrows⟩ := middle_forgotten
  have hchain := h ps w hrun amy
  obtain ⟨a, l, hl, ha, hb⟩ := List.map_eq_cons_iff.1 hrows
  obtain ⟨b, l', rfl, hb, hnil⟩ := List.map_eq_cons_iff.1 hb
  have hlink := hchain [a] b l' (by rw [hl]; rfl)
  have hnone : b.predecessor = none := (Prod.mk.inj hb).2
  rw [hnone] at hlink
  cases hlink

theorem forgotten_week_kept : ∃ w : World Bool OutboxStore UploadPlace,
    (rowsOf w.store.device.outbox amy).map (fun r => (r.id, r.predecessor)) = [("op_1", none), ("op_3", none)] ∧
      OutboxSafe w.store := by
  obtain ⟨ps, w, hrun, hrows⟩ := middle_forgotten
  exact ⟨w, hrows, (week_edits_kept hrun).1⟩

end ClientBridge
