import ClientBridge.Sync.OutboxInvariant

/-!
# The device's transactions keep the outbox

One lemma for each transaction of an upload and of the editor.
-/

namespace ClientBridge

open Runs

variable {rows : List OutboxRow} {log : List HoursEvent} {d d' : Device}

/-! ## Rows nothing happens to -/

theorem SameRow.retryNow (log : List HoursEvent) (r : OutboxRow) : SameRow log r r.retryNow := by
  unfold OutboxRow.retryNow
  split
  · exact ⟨rfl, rfl, rfl, rfl, fun _ => rfl, rfl, rfl, rfl, .rfl, fun _ => rfl, .inl rfl⟩
  · exact .refl log r

theorem SameRow.retry (log : List HoursEvent) (code : String) (at' : Int) (r : OutboxRow) :
    SameRow log r (r.retry code at') := by
  unfold OutboxRow.retry
  split
  · rename_i hstate
    exact ⟨rfl, rfl, rfl, rfl, fun _ => rfl, rfl, rfl, rfl, by simp [hstate], fun _ => rfl, .inl rfl⟩
  · exact .refl log r

theorem SameRow.reject (log : List HoursEvent) (code : String) (r : OutboxRow) : SameRow log r (r.reject code) := by
  unfold OutboxRow.reject
  split
  · rename_i hstate
    exact ⟨rfl, rfl, rfl, rfl, fun _ => rfl, rfl, rfl, rfl, by simp [hstate], fun _ => rfl, .inl rfl⟩
  · exact .refl log r

theorem OutboxKeeps.worked (h : OutboxKeeps rows log) {r : OutboxRow} (hr : r ∈ rows) (hstate : r.state ≠ .queued) :
    0 < r.attemptCount := (h.chains r.member).worked r (mem_rowsOf.2 ⟨hr, rfl⟩) hstate

theorem OutboxKeeps.retryNow (h : OutboxKeeps d.outbox log) : OutboxKeeps (d.outbox.map OutboxRow.retryNow) log := by
  have hsame := SameRow.retryNow log
  refine h.update (fun r _ => hsame r) (fun r hr hstate => ?_) fun r _ => ?_
  · rw [(hsame r).count]
    refine h.worked hr fun hr => hstate ?_
    unfold OutboxRow.retryNow
    split <;> exact hr
  · unfold OutboxRow.retryNow
    split <;> rfl

/-- One row is rewritten. -/
theorem OutboxKeeps.updateAt (h : OutboxKeeps d.outbox log) {id : String} {f : OutboxRow → OutboxRow}
    (hsame : ∀ r, SameRow log r (f r)) (hlink : ∀ r, (f r).predecessor = r.predecessor)
    (hworked : ∀ r ∈ d.outbox, r.id = id → (f r).state ≠ .queued → 0 < r.attemptCount) :
    OutboxKeeps (d.update id f).outbox log := by
  refine h.update (fun r _ => ?_) (fun r hr => ?_) fun r _ => ?_
  · split
    · exact hsame r
    · exact .refl log r
  · split
    · rename_i hid
      rw [(hsame r).count]
      exact hworked r hr hid
    · exact h.worked hr
  · split
    · exact hlink r
    · rfl

theorem OutboxKeeps.postpone (h : OutboxKeeps d.outbox log) (id : String) (retryAt : Int) :
    OutboxKeeps (d.update id fun r => { r with retryAt := retryAt }).outbox log :=
  h.updateAt (fun _ => ⟨rfl, rfl, rfl, rfl, fun _ => rfl, rfl, rfl, rfl, .rfl, fun _ => rfl, .inl rfl⟩) (fun _ => rfl)
    fun _ hr _ hstate => h.worked hr hstate

theorem OutboxKeeps.retry (h : OutboxKeeps d.outbox log) (id code : String) (retryAt : Int) :
    OutboxKeeps (d.update id (OutboxRow.retry code retryAt)).outbox log := by
  refine h.updateAt (SameRow.retry log code retryAt) (fun r => ?_) fun r hr _ hstate => h.worked hr fun hqueued => hstate ?_
  · unfold OutboxRow.retry
    split <;> rfl
  · unfold OutboxRow.retry
    rw [if_neg (by simp [hqueued]), hqueued]

theorem OutboxKeeps.reject (h : OutboxKeeps d.outbox log) {c : OutboxRow} (hc : .claimed c ∈ log) (code : String) :
    OutboxKeeps (d.update c.id (OutboxRow.reject code)).outbox log := by
  refine h.updateAt (SameRow.reject log code) (fun r => ?_) fun r hr hid _ => h.attempted hr hc hid.symm
  unfold OutboxRow.reject
  split <;> rfl

/-! ## Accepted rows that go -/

theorem OutboxKeeps.drop (h : OutboxKeeps rows log) {u : String} (hu : ∃ v, .accepted u v ∈ log)
    {f : OutboxRow → OutboxRow} (hsame : ∀ r, SameRow log r (f r)) (hstate : ∀ r, (f r).state = r.state)
    (hlink : ∀ r, (f r).predecessor = if r.predecessor = some u then none else r.predecessor) :
    OutboxKeeps ((rows.map f).filter fun r => decide (r.id ≠ u)) log := by
  obtain ⟨v, hv⟩ := hu
  have haccepted : ∀ r ∈ rows, r.id = u → r.state = .accepted := fun r hr hid => (h.row r hr).final v (hid ▸ hv)
  refine h.rewrite (fun r _ => hsame r) (fun r hr hk => haccepted r hr ?_) fun m => ?_
  · rwa [decide_eq_false_iff_not, not_not, (hsame r).id] at hk
  · exact (h.chains m).drop (fun r hr => haccepted r (mem_rowsOf.1 hr).1) (fun r _ => (hsame r).id) (fun r _ => hlink r)
      (fun r _ => (hsame r).count) fun r _ => hstate r

theorem SameRow.unlink {u : String} (hu : ∃ v, .accepted u v ∈ log) (r : OutboxRow) : SameRow log r (r.unlink u) := by
  obtain ⟨v, hv⟩ := hu
  unfold OutboxRow.unlink
  split
  · rename_i hlink
    exact ⟨rfl, rfl, rfl, rfl, fun _ => rfl, rfl, rfl, rfl, .rfl, fun _ => rfl, .inr ⟨u, v, hlink, hv⟩⟩
  · exact .refl log r

theorem SameRow.release {parent : String × Int} (hu : ∃ v, .accepted parent.1 v ∈ log) (r : OutboxRow) :
    SameRow log r (r.release parent) := by
  obtain ⟨v, hv⟩ := hu
  unfold OutboxRow.release
  split
  · rename_i hlink
    by_cases hcount : r.attemptCount = 0
    · rw [if_pos hcount]
      exact ⟨rfl, rfl, rfl, rfl, fun hpos => by omega, rfl, rfl, rfl, .rfl, fun _ => rfl, .inr ⟨_, v, hlink, hv⟩⟩
    · rw [if_neg hcount]
      exact ⟨rfl, rfl, rfl, rfl, fun _ => rfl, rfl, rfl, rfl, .rfl, fun _ => rfl, .inr ⟨_, v, hlink, hv⟩⟩
  · exact .refl log r

theorem OutboxKeeps.forget (h : OutboxKeeps d.outbox log) {u : String} (hu : ∃ v, .accepted u v ∈ log) :
    OutboxKeeps (d.forget u).outbox log := by
  have hdrop := h.drop hu (SameRow.unlink hu) (fun r => by unfold OutboxRow.unlink; split <;> rfl)
    (fun r => by unfold OutboxRow.unlink; split <;> rfl)
  have hrows : (d.forget u).outbox = (d.outbox.map (·.unlink u)).filter fun r => decide (r.id ≠ u) := by
    refine List.filter_congr fun r' hr' => ?_
    obtain ⟨r, hr, rfl⟩ := List.mem_map.1 hr'
    have hsame := SameRow.unlink hu r
    obtain ⟨v, hv⟩ := hu
    refine decide_eq_decide.2 (not_congr ⟨And.left, fun hid => ⟨hid, ?_⟩⟩)
    exact hsame.accepted.2 ((h.row r hr).final v (hsame.id.symm.trans hid ▸ hv))
  rwa [hrows]

theorem OutboxKeeps.settle (h : OutboxKeeps d.outbox log) {parent : String × Int} (hu : ∃ v, .accepted parent.1 v ∈ log) :
    OutboxKeeps (d.settle parent).outbox log :=
  h.drop hu (SameRow.release hu) (fun r => by unfold OutboxRow.release; split <;> rfl)
    (fun r => by unfold OutboxRow.release; split <;> rfl)

theorem OutboxKeeps.settleAll (h : OutboxKeeps d.outbox log) {parents : List (String × Int)}
    (hu : ∀ x ∈ parents, ∃ v, .accepted x.1 v ∈ log) : OutboxKeeps (parents.foldl Device.settle d).outbox log := by
  induction parents generalizing d with
  | nil => exact h
  | cons x parents ih =>
    exact ih (h.settle (hu x List.mem_cons_self)) fun y hy => hu y (List.mem_cons_of_mem _ hy)

theorem OutboxKeeps.observed (h : OutboxKeeps d.outbox log) {x : String × Int} (hx : x ∈ d.observed) :
    ∃ v, .accepted x.1 v ∈ log := by
  obtain ⟨r, hr, hx⟩ := List.mem_filterMap.1 hx
  split at hx
  · split at hx
    · rename_i hstate
      cases hx
      obtain ⟨v, -, hv⟩ := (h.row r hr).accepted hstate.1
      exact ⟨v, hv⟩
    · cases hx
  · cases hx

/-! ## Claims and answers -/

theorem Device.find_some {id : String} {p : OutboxRow} (h : d.find id = some p) : p ∈ d.outbox ∧ p.id = id := by
  unfold Device.find at h
  have hid := List.find?_some h
  exact ⟨List.mem_of_find?_eq_some h, of_decide_eq_true hid⟩

/-- A row may go again, or its link is gone, or leads to an accepted row. -/
theorem OutboxRow.mayGo_cases {r : OutboxRow} {now : Int} (h : r.mayGo d now = true) :
    (r.state = .queued ∨ r.state = .sending) ∧ (r.predecessor = none ∨ 0 < r.attemptCount ∨
      ∃ p, r.predecessor = some p.id ∧ p ∈ d.outbox ∧ p.state = .accepted) := by
  unfold OutboxRow.mayGo at h
  rw [Bool.and_eq_true, Bool.or_eq_true, decide_eq_true_iff, decide_eq_true_iff] at h
  obtain ⟨⟨hstate, -⟩, (hnone | hcount) | hparent⟩ := h
  · exact ⟨hstate, .inl hnone⟩
  · exact ⟨hstate, .inr (.inl hcount)⟩
  · refine ⟨hstate, .inr (.inr ?_)⟩
    obtain ⟨p, hp, hpstate⟩ := Option.any_eq_true _ _ |>.1 hparent
    obtain ⟨id, hid, hfind⟩ := Option.bind_eq_some_iff.1 hp
    obtain ⟨hmem, rfl⟩ := Device.find_some hfind
    exact ⟨p, hid, hmem, of_decide_eq_true hpstate⟩

theorem OutboxRow.attempt_request (r : OutboxRow) (d : Device) (now : Int) :
    (r.attempt d now).payload.operationId = r.payload.operationId ∧
      (r.attempt d now).payload.businessId = r.payload.businessId ∧ (r.attempt d now).payload.days = r.payload.days ∧
      (0 < r.attemptCount → (r.attempt d now).payload = r.payload) := by
  unfold OutboxRow.attempt
  split
  · split
    · exact ⟨rfl, rfl, rfl, fun hpos => by omega⟩
    · exact ⟨rfl, rfl, rfl, fun _ => rfl⟩
  · exact ⟨rfl, rfl, rfl, fun _ => rfl⟩

/-- The rows before one that may go are accepted. -/
theorem OutboxKeeps.before (h : OutboxKeeps d.outbox log) {r : OutboxRow} {now : Int} (hgo : r.mayGo d now = true)
    {m : Member} {pre post : List OutboxRow} (hl : rowsOf d.outbox m = pre ++ r :: post) :
    ∀ a ∈ pre, a.state = .accepted := by
  obtain ⟨-, hnone | hcount | ⟨p, hp, hmem, hstate⟩⟩ := OutboxRow.mayGo_cases hgo
  · exact fun a ha => pairwise_iff_split.1 (h.chains m).settled pre r post hl a ha (.inl hnone)
  · exact fun a ha => pairwise_iff_split.1 (h.chains m).settled pre r post hl a ha (.inr hcount)
  · refine (h.chains m).before hl hp fun x hx hid => ?_
    rwa [h.eq_of_id (mem_rowsOf.1 hx).1 hmem hid]

theorem OutboxKeeps.mayClaim (h : OutboxKeeps d.outbox log) {r : OutboxRow} {now : Int} (hr : r ∈ d.outbox)
    (hgo : r.mayGo d now = true) : MayClaim log (r.attempt d now) := by
  obtain ⟨hop, -, -, hpayload⟩ := r.attempt_request d now
  obtain ⟨hstate, hfree⟩ := OutboxRow.mayGo_cases hgo
  have hrow := h.row r hr
  refine ⟨hop.trans hrow.named.1, hrow.stored, fun c hc hid => ?_, fun v hv => ?_, fun r' hr' hid p hp => ?_⟩
  · have hcount := h.attempted hr hc hid
    obtain ⟨c', hc', hid', hpayload', hmember⟩ := hrow.claimed hcount
    obtain ⟨hsame, hsame'⟩ := h.history.frozen c c' hc hc' (hid.trans hid'.symm)
    exact ⟨by rw [hsame, hpayload', hpayload hcount], hsame'.trans hmember⟩
  · have hdone := hrow.final v hv
    rw [hdone] at hstate
    simp at hstate
  · obtain hparent | hdone := hrow.parents r' hr' hid p hp
    · obtain hnone | hcount | ⟨q, hq, hmem, hqstate⟩ := hfree
      · rw [hnone] at hparent
        cases hparent
      · obtain ⟨c, hc, hid', -⟩ := hrow.claimed hcount
        exact h.history.parents c hc r' hr' (hid.trans hid'.symm) p hp
      · obtain ⟨v, -, hv⟩ := (h.row q hmem).accepted hqstate
        rw [hparent] at hq
        cases hq
        exact ⟨v, hv⟩
    · exact hdone

theorem TableKeeps.update_eq (h : TableKeeps d.outbox log) {r : OutboxRow} (hr : r ∈ d.outbox) (f : OutboxRow → OutboxRow) :
    (d.update r.id f).outbox = d.outbox.map fun x => if x.id = r.id then f r else x := by
  refine List.map_congr_left fun x hx => ?_
  by_cases hid : x.id = r.id
  · rw [if_pos hid, if_pos hid, h.eq_of_id hx hr hid]
  · rw [if_neg hid, if_neg hid]

/-- One row moves on, with the event that says so. -/
theorem TableKeeps.replace (h : TableKeeps rows log) {r r' : OutboxRow} {e : HoursEvent} (hr : r ∈ rows)
    (hid : r'.id = r.id) (hmember : r'.member = r.member) (hsequence : r'.sequence = r.sequence)
    (hlink : r'.predecessor = r.predecessor) (hcount : r.attemptCount ≤ r'.attemptCount)
    (haccepted : r.state = .accepted → r'.state = .accepted) (hworked : r'.state ≠ .queued → 0 < r'.attemptCount)
    (hfirst : ∀ pre post, rowsOf rows r.member = pre ++ r :: post → r.attemptCount = 0 → 0 < r'.attemptCount →
      ∀ a ∈ pre, a.state = .accepted)
    (hrow : RowKeeps (log ++ [e]) r') (hrows : ∀ x ∈ rows, x.id ≠ r.id → RowKeeps (log ++ [e]) x)
    (hlog : LogKeeps (log ++ [e])) : TableKeeps (rows.map fun x => if x.id = r.id then r' else x) (log ++ [e]) := by
  have hone : ∀ x ∈ rows, x.id = r.id → x = r := fun x hx hxid => h.eq_of_id hx hr hxid
  have hids : (rows.map fun x => if x.id = r.id then r' else x).map (·.id) = rows.map (·.id) := by
    rw [List.map_map]
    refine List.map_congr_left fun x _ => ?_
    show (if x.id = r.id then r' else x).id = x.id
    split
    · rename_i hxid
      rw [hid, hxid]
    · rfl
  refine ⟨hids ▸ h.ids, ?_, fun m => ?_, fun x' hx' => ?_, hlog⟩
  · have hseq : ∀ x ∈ rows, (if x.id = r.id then r' else x).sequence = x.sequence := by
      intro x hx
      split
      · rename_i hxid
        rw [hone x hx hxid, hsequence]
      · rfl
    rw [List.pairwise_map]
    refine h.sequences.imp_of_mem fun ha hb hlt => ?_
    rwa [hseq _ ha, hseq _ hb]
  · have hmem : ∀ x ∈ rowsOf rows m, x ∈ rows := fun x hx => (mem_rowsOf.1 hx).1
    rw [rowsOf_map fun x hx => ?_]
    · have hcase : ∀ x ∈ rowsOf rows m, x = r ∧ (if x.id = r.id then r' else x) = r' ∨
          (if x.id = r.id then r' else x) = x := by
        intro x hx
        by_cases hxid : x.id = r.id
        · exact .inl ⟨hone x (hmem x hx) hxid, if_pos hxid⟩
        · exact .inr (if_neg hxid)
      refine (h.chains m).map (fun x hx => ?_) (fun x hx => ?_) (fun x hx => ?_) (fun x hx => ?_) (fun x hx => ?_) ?_
      · obtain ⟨rfl, hx'⟩ | hx' := hcase x hx <;> rw [hx']
        exact hid
      · obtain ⟨rfl, hx'⟩ | hx' := hcase x hx <;> rw [hx']
        exact hlink
      · obtain ⟨rfl, hx'⟩ | hx' := hcase x hx <;> rw [hx']
        exact hcount
      · obtain ⟨rfl, hx'⟩ | hx' := hcase x hx <;> rw [hx']
        · exact haccepted
        · exact fun hstate => hstate
      · obtain ⟨rfl, hx'⟩ | hx' := hcase x hx <;> rw [hx']
        · exact hworked
        · exact (h.chains m).worked x hx
      intro pre x post hl hzero hpos
      by_cases hxid : x.id = r.id
      · have hx : x ∈ rowsOf rows m := by simp [hl]
        obtain rfl := hone x (hmem x hx) hxid
        rw [if_pos rfl] at hpos
        obtain rfl := (mem_rowsOf.1 hx).2
        exact hfirst pre post hl hzero hpos
      · rw [if_neg hxid, hzero] at hpos
        exact absurd hpos (lt_irrefl 0)
    · split
      · rename_i hxid
        rw [hone x hx hxid, hmember]
      · rfl
  · obtain ⟨x, hx, rfl⟩ := List.mem_map.1 hx'
    split
    · exact hrow
    · rename_i hxid
      exact hrows x hx hxid

theorem HasDays.replace {r r' : OutboxRow} {m : Member} {id : String} {days : List WeekDay}
    (h : HasDays rows log m id days) (hone : ∀ x ∈ rows, x.id = r.id → x = r) (hid : r'.id = r.id)
    (hmember : r'.member = r.member) (hdays : r'.payload.days = r.payload.days) (e : HoursEvent) :
    HasDays (rows.map fun x => if x.id = r.id then r' else x) (log ++ [e]) m id days := by
  obtain ⟨x, hx, hxid, hxm, hxdays⟩ | hdone := h
  · left
    refine ⟨_, List.mem_map_of_mem hx, ?_⟩
    split
    · rename_i hxr
      obtain rfl := hone x hx hxr
      exact ⟨hid.trans hxid, hmember.trans hxm, hdays.trans hxdays⟩
    · exact ⟨hxid, hxm, hxdays⟩
  · exact HasDays.mono (.inr hdone) fun e' he' => List.mem_append_left _ he'

theorem OutboxKeeps.attempt (h : OutboxKeeps d.outbox log) {r : OutboxRow} {now : Int} (hr : r ∈ d.outbox)
    (hgo : r.mayGo d now = true) :
    OutboxKeeps (d.update r.id fun _ => r.attempt d now).outbox (log ++ [.claimed (r.attempt d now)]) := by
  have hclaim := h.mayClaim hr hgo
  obtain ⟨hop, hbusiness, hdays, hpayload⟩ := r.attempt_request d now
  have hrow := h.row r hr
  rw [h.update_eq hr]
  refine ⟨h.replace hr rfl rfl rfl rfl (Nat.le_succ _) (fun hstate => ?_) (fun _ => Nat.succ_pos _)
    (fun pre post hl _ _ => h.before hgo hl) ?_ (fun x hx hxid => ?_) ?_, fun m x hx => ?_⟩
  · obtain ⟨hstate', -⟩ := OutboxRow.mayGo_cases hgo
    rw [hstate] at hstate'
    simp at hstate'
  · refine ⟨⟨hop.trans hrow.named.1, hbusiness.trans hrow.named.2⟩, ?_, fun _ => ⟨_, by simp, rfl, rfl, rfl⟩, ?_, ?_, ?_, ?_⟩
    · obtain ⟨r', hr', hid⟩ := hrow.stored
      exact ⟨r', List.mem_append_left _ hr', hid⟩
    · intro hzero
      cases hzero
    · intro hstate
      cases hstate
    · intro v hv
      exact absurd (by simpa using hv) (hclaim.fresh v)
    · intro r' hr' hid p hp
      obtain hr' | hr' := List.mem_append.1 hr'
      · obtain hparent | ⟨v, hv⟩ := hrow.parents r' hr' hid p hp
        · exact .inl hparent
        · exact .inr ⟨v, List.mem_append_left _ hv⟩
      · cases List.mem_singleton.1 hr'
  · refine (h.row x hx).snoc (by simp) (fun c hc hid => ?_) (by simp)
    cases hc
    exact absurd hid.symm hxid
  · exact h.history.snoc (by simp) (fun c hc => HoursEvent.claimed.inj hc ▸ hclaim) (by simp) (by simp)
  · rw [newestOf_snoc] at hx
    have hid : (r.attempt d now).id = r.id := rfl
    exact (h.newest m x hx).replace (fun y hy hid => h.eq_of_id hy hr hid) hid rfl hdays _

/-- An event that is about no row. -/
theorem OutboxKeeps.event (h : OutboxKeeps rows log) {e : HoursEvent} (hrows : ∀ r ∈ rows, RowKeeps (log ++ [e]) r)
    (hlog : LogKeeps (log ++ [e])) (hnewest : ∀ m, newestOf (log ++ [e]) m = newestOf log m) :
    OutboxKeeps rows (log ++ [e]) := by
  refine ⟨⟨h.ids, h.sequences, h.chains, hrows, hlog⟩, fun m r hr => ?_⟩
  rw [hnewest] at hr
  exact (h.newest m r hr).mono fun e' he' => List.mem_append_left _ he'

theorem OutboxKeeps.posted (h : OutboxKeeps rows log) {c : OutboxRow} (hc : .claimed c ∈ log) (user : String) :
    OutboxKeeps rows (log ++ [.posted ⟨user, c.member, c.payload⟩]) := by
  refine h.event (fun r hr => (h.row r hr).snoc (by simp) (by simp) (by simp)) ?_ fun m => newestOf_snoc log _ m
  refine h.history.snoc (by simp) (by simp) (fun q hq => ?_) (by simp)
  cases hq
  exact ⟨c, hc, rfl, rfl⟩

theorem OutboxKeeps.accept (h : OutboxKeeps d.outbox log) {c : OutboxRow} (hc : .claimed c ∈ log) (v : Int) :
    OutboxKeeps (d.update c.id (OutboxRow.accept v)).outbox (log ++ [.accepted c.id v]) := by
  have hlog : LogKeeps (log ++ [.accepted c.id v]) := by
    refine h.history.snoc (by simp) (by simp) (by simp) fun id w hv => ?_
    cases hv
    exact ⟨c, hc, rfl⟩
  have hrows : ∀ x ∈ d.outbox, x.id ≠ c.id → RowKeeps (log ++ [.accepted c.id v]) x := by
    intro x hx hid
    exact (h.row x hx).snoc (by simp) (by simp) fun w hw => absurd (HoursEvent.accepted.inj hw).1.symm hid
  by_cases hexists : ∃ r ∈ d.outbox, r.id = c.id
  · obtain ⟨r, hr, hid⟩ := hexists
    have hworked := h.attempted hr hc hid.symm
    have hrow := h.row r hr
    rw [← hid] at hlog hrows ⊢
    rw [h.update_eq hr]
    refine ⟨h.replace hr rfl rfl rfl rfl le_rfl (fun _ => rfl) (fun _ => hworked) (fun _ _ _ hzero _ => by omega) ?_ hrows hlog,
      fun m x hx => ?_⟩
    · refine ⟨hrow.named, ?_, fun _ => ?_, fun hzero => ?_, fun _ => ⟨v, rfl, by simp [OutboxRow.accept]⟩, fun _ _ => rfl, ?_⟩
      · obtain ⟨r', hr', hid⟩ := hrow.stored
        exact ⟨r', List.mem_append_left _ hr', hid⟩
      · obtain ⟨c', hc', hsame⟩ := hrow.claimed hworked
        exact ⟨c', List.mem_append_left _ hc', hsame⟩
      · rw [show (r.accept v).attemptCount = r.attemptCount from rfl] at hzero
        omega
      · intro r' hr' hid p hp
        obtain hr' | hr' := List.mem_append.1 hr'
        · obtain hparent | ⟨w, hw⟩ := hrow.parents r' hr' hid p hp
          · exact .inl hparent
          · exact .inr ⟨w, List.mem_append_left _ hw⟩
        · cases List.mem_singleton.1 hr'
    · rw [newestOf_snoc] at hx
      have hid : (r.accept v).id = r.id := rfl
      exact (h.newest m x hx).replace (fun y hy hid => h.eq_of_id hy hr hid) hid rfl rfl _
  · have hother : ∀ r ∈ d.outbox, r.id ≠ c.id := fun r hr hid => hexists ⟨r, hr, hid⟩
    have hsame : (d.update c.id (OutboxRow.accept v)).outbox = d.outbox := by
      refine (List.map_congr_left fun r hr => ?_).trans (List.map_id _)
      rw [if_neg (hother r hr), id]
    rw [hsame]
    exact h.event (fun r hr => hrows r hr (hother r hr)) hlog fun m => newestOf_snoc log _ m

/-! ## Discarding -/

theorem OutboxKeeps.discard (h : OutboxKeeps rows log) {m : Member} {k : OutboxRow → Bool}
    (hk : ∀ r, r.member ≠ m → k r = true) (hchain : Chain ((rowsOf rows m).filter k)) :
    OutboxKeeps (rows.filter k) (log ++ [.discarded m]) := by
  refine ⟨⟨h.ids.sublist (List.filter_sublist.map _), h.sequences.filter _, fun m' => ?_, fun r hr => ?_, ?_⟩,
    fun m' r hr => ?_⟩
  · rw [rowsOf_filter]
    by_cases hm : m' = m
    · rwa [hm]
    · have hall : (rowsOf rows m').filter k = rowsOf rows m' := by
        refine List.filter_eq_self.2 fun r hr => hk r ?_
        rwa [(mem_rowsOf.1 hr).2]
      rw [hall]
      exact h.chains m'
  · exact (h.row r (List.mem_filter.1 hr).1).snoc (by simp) (by simp) (by simp)
  · exact h.history.snoc (by simp) (by simp) (by simp) (by simp)
  · rw [newestOf_snoc] at hr
    dsimp only at hr
    split at hr
    · cases hr
    · rename_i hm
      refine HasDays.mono ?_ fun e he => List.mem_append_left _ he
      obtain ⟨r', hr', hid, hm', hdays⟩ | hdone := h.newest m' r hr
      · refine .inl ⟨r', List.mem_filter.2 ⟨hr', hk r' ?_⟩, hid, hm', hdays⟩
        rw [hm']
        exact fun hmm => hm hmm.symm
      · exact .inr hdone

theorem OutboxKeeps.discardHours (h : OutboxKeeps d.outbox log) {m : Member}
    (hd : d.discardRejectedHours m = .ok d') : OutboxKeeps d'.outbox (log ++ [.discarded m]) := by
  unfold Device.discardRejectedHours at hd
  split at hd
  · cases hd
  · cases hd
    refine h.discard (fun r hr => by simpa using hr) ?_
    have hnone : (rowsOf d.outbox m).filter (fun r => decide (r.member ≠ m)) = [] :=
      List.filter_eq_nil_iff.2 fun r hr => by simp [(mem_rowsOf.1 hr).2]
    rw [hnone]
    exact .nil

theorem OutboxKeeps.discardGroup (h : OutboxKeeps d.outbox log) {m : Member} (hd : d.discardGroup m = .ok d') :
    OutboxKeeps d'.outbox (log ++ [.discarded m]) := by
  unfold Device.discardGroup at hd
  split at hd
  · cases hd
  · cases hd
    refine h.discard (fun r hr => by simp [hr]) ?_
    have haccepted : (rowsOf d.outbox m).filter (fun r => decide (r.member ≠ m ∨ r.state = .accepted)) =
        (rowsOf d.outbox m).filter fun r => decide (r.state = .accepted) :=
      List.filter_congr fun r hr => by simp [(mem_rowsOf.1 hr).2]
    rw [haccepted]
    exact (h.chains m).accepted

theorem OutboxKeeps.discardGroups (h : OutboxKeeps d.outbox log) {ms : List Member}
    (hd : ms.foldlM Device.discardGroup d = .ok d') : OutboxKeeps d'.outbox (log ++ ms.map .discarded) := by
  induction ms generalizing d log with
  | nil =>
    cases hd
    rwa [List.map_nil, List.append_nil]
  | cons m ms ih =>
    rw [List.foldlM_cons] at hd
    cases hm : d.discardGroup m with
    | error e =>
      rw [hm] at hd
      cases hd
    | ok d₁ =>
      rw [hm] at hd
      have hrest := ih (h.discardGroup hm) hd
      rwa [List.append_assoc] at hrest

/-! ## Editing -/

/-- An edit replaces the days of a last row nobody attempted, or comes after the last row. -/
theorem Device.enqueueHours_cases {e : HoursEdit} {drawn : Drawn} {r : OutboxRow}
    (h : d.enqueueHours e drawn = .ok (d', r)) :
    (∃ p, (rowsOf (e.rows d) e.member).getLast? = some p ∧ p.state = .queued ∧ p.attemptCount = 0 ∧
      r = p.withDays e.days ∧ d'.outbox = (e.rows d).map fun x => if x.id = p.id then x.withDays e.days else x) ∨
    ∃ actorId deviceId, r = e.row (rowsOf (e.rows d) e.member).getLast? actorId deviceId drawn (nextSequence (e.rows d)) ∧
      d'.outbox = e.rows d ++ [r] ∧
      ∀ p, (rowsOf (e.rows d) e.member).getLast? = some p → ¬(p.state = .queued ∧ p.attemptCount = 0) := by
  unfold Device.enqueueHours at h
  split at h
  · cases h
  · rename_i actorId _
    split at h
    · cases h
    · dsimp only at h
      split at h
      · rename_i hnone
        cases h
        right
        rw [hnone]
        exact ⟨actorId, _, rfl, rfl, by simp⟩
      · rename_i p hlast
        split at h
        · cases h
        split at h
        · cases h
        split at h
        · rename_i hidle
          cases h
          exact .inl ⟨p, hlast, hidle.1, hidle.2, rfl, rfl⟩
        · rename_i hbusy
          cases h
          right
          rw [hlast]
          refine ⟨actorId, _, rfl, rfl, fun p' hp' => ?_⟩
          cases hp'
          exact hbusy

theorem TableKeeps.without (h : TableKeeps rows log) (m : Member) :
    TableKeeps (rows.filter fun r => decide (r.member ≠ m)) log := by
  refine ⟨h.ids.sublist (List.filter_sublist.map _), h.sequences.filter _, fun m' => ?_,
    fun r hr => h.row r (List.mem_filter.1 hr).1, h.history⟩
  rw [rowsOf_filter]
  by_cases hm : m' = m
  · have hnone : (rowsOf rows m').filter (fun r => decide (r.member ≠ m)) = [] :=
      List.filter_eq_nil_iff.2 fun r hr => by simp [(mem_rowsOf.1 hr).2, hm]
    rw [hnone]
    exact .nil
  · have hall : (rowsOf rows m').filter (fun r => decide (r.member ≠ m)) = rowsOf rows m' :=
      List.filter_eq_self.2 fun r hr => by simp [(mem_rowsOf.1 hr).2, hm]
    rw [hall]
    exact h.chains m'

theorem OutboxKeeps.edited (h : OutboxKeeps d.outbox log) (e : HoursEdit) : TableKeeps (e.rows d) log := by
  unfold HoursEdit.rows
  split
  · exact h.without e.member
  · exact h.toTableKeeps

/-- The rows of other members are still there. -/
theorem HasDays.edited {e : HoursEdit} {m : Member} {id : String} {days : List WeekDay}
    (h : HasDays d.outbox log m id days) (hm : m ≠ e.member) : HasDays (e.rows d) log m id days := by
  obtain ⟨r, hr, hid, hrm, hdays⟩ | hdone := h
  · refine .inl ⟨r, ?_, hid, hrm, hdays⟩
    unfold HoursEdit.rows
    split
    · exact List.mem_filter.2 ⟨hr, by simp [hrm, hm]⟩
    · exact hr
  · exact .inr hdone

theorem lt_nextSequence {r : OutboxRow} (hr : r ∈ rows) : r.sequence < nextSequence rows := by
  unfold nextSequence
  cases hmax : (rows.map (·.sequence)).max? with
  | none =>
    rw [List.max?_eq_none_iff, List.map_eq_nil_iff] at hmax
    subst hmax
    cases hr
  | some n =>
    have hle := (List.max?_eq_some_iff.1 hmax).2 r.sequence (List.mem_map_of_mem hr)
    show r.sequence < n + 1
    omega

theorem newestOf_stored {r x : OutboxRow} {m : Member} (h : newestOf (log ++ [.stored r]) m = some x) :
    m = r.member ∧ x = r ∨ m ≠ r.member ∧ newestOf log m = some x := by
  rw [newestOf_snoc] at h
  dsimp only at h
  split at h
  · rename_i hm
    exact .inl ⟨hm.symm, (Option.some.inj h).symm⟩
  · rename_i hm
    exact .inr ⟨fun h => hm h.symm, h⟩

/-- The days of a row nobody attempted are replaced. -/
theorem OutboxKeeps.withDays (h : OutboxKeeps d.outbox log) {e : HoursEdit} {p : OutboxRow} (hp : p ∈ e.rows d)
    (hpm : p.member = e.member) (hstate : p.state = .queued) (hcount : p.attemptCount = 0) :
    OutboxKeeps ((e.rows d).map fun x => if x.id = p.id then p.withDays e.days else x)
      (log ++ [.stored (p.withDays e.days)]) := by
  have htable := h.edited e
  have hprow := htable.row p hp
  have hzero : (p.withDays e.days).attemptCount = 0 := hcount
  have hqueued : (p.withDays e.days).state = .queued := hstate
  refine ⟨htable.replace hp rfl rfl rfl rfl le_rfl (fun hs => hs) (fun hs => absurd hqueued hs)
    (fun _ _ _ _ hpos => by omega) ?_ (fun x hx hid => ?_) ?_, fun m x hx => ?_⟩
  · refine ⟨hprow.named, ⟨_, by simp, rfl⟩, fun hpos => by omega, fun _ c hc => ?_, fun hs => ?_, fun v hv => ?_, ?_⟩
    · exact hprow.unclaimed hcount c (by simpa using hc)
    · rw [hqueued] at hs
      cases hs
    · exact hprow.final v ((List.mem_append.1 hv).resolve_right (by simp))
    · intro r' hr' hid q hq
      obtain hr' | hr' := List.mem_append.1 hr'
      · obtain hparent | ⟨v, hv⟩ := hprow.parents r' hr' hid q hq
        · exact .inl hparent
        · exact .inr ⟨v, List.mem_append_left _ hv⟩
      · cases List.mem_singleton.1 hr'
        exact .inl hq
  · refine (htable.row x hx).snoc (fun r' hr' hid' => ?_) (by simp) (by simp)
    cases hr'
    exact absurd hid'.symm hid
  · refine htable.history.snoc (fun r' hr' c hc hid => ?_) (by simp) (by simp) (by simp)
    cases hr'
    exact hprow.unclaimed hcount c hc hid
  · obtain ⟨rfl, rfl⟩ | ⟨hm, hx⟩ := newestOf_stored hx
    · refine .inl ⟨_, List.mem_map_of_mem hp, ?_⟩
      rw [if_pos rfl]
      exact ⟨rfl, rfl, rfl⟩
    · have hold := (h.newest m x hx).edited (e := e) (by rwa [← hpm])
      obtain ⟨y, hy, hyid, hym, hydays⟩ | hdone := hold
      · refine .inl ⟨y, List.mem_map.2 ⟨y, hy, if_neg fun hid => hm ?_⟩, hyid, hym, hydays⟩
        rw [← hym, htable.eq_of_id hy hp hid]
        rfl
      · exact HasDays.mono (.inr hdone) fun e' he' => List.mem_append_left _ he'

/-- A new row comes after the member's last one, which was attempted. -/
theorem OutboxKeeps.insert (h : OutboxKeeps d.outbox log) {e : HoursEdit} {drawn : Drawn} {actorId deviceId : String}
    (hnew : ∀ r', .stored r' ∈ log → r'.id ≠ drawn.id) {r : OutboxRow}
    (hr : r = e.row (rowsOf (e.rows d) e.member).getLast? actorId deviceId drawn (nextSequence (e.rows d)))
    (hbusy : ∀ p, (rowsOf (e.rows d) e.member).getLast? = some p → ¬(p.state = .queued ∧ p.attemptCount = 0)) :
    OutboxKeeps (e.rows d ++ [r]) (log ++ [.stored r]) := by
  have htable := h.edited e
  have hid : r.id = drawn.id := hr ▸ rfl
  have hm : r.member = e.member := hr ▸ rfl
  have hstate : r.state = .queued := hr ▸ rfl
  have hcount : r.attemptCount = 0 := hr ▸ rfl
  have hsequence : r.sequence = nextSequence (e.rows d) := hr ▸ rfl
  have hlink : r.predecessor = (rowsOf (e.rows d) e.member).getLast?.map (·.id) := hr ▸ rfl
  have hother : ∀ x ∈ e.rows d, x.id ≠ r.id := by
    intro x hx hxid
    obtain ⟨r', hr', hid'⟩ := (htable.row x hx).stored
    exact hnew r' hr' (hid'.trans (hxid.trans hid))
  have hunclaimed : ∀ c, .claimed c ∈ log → c.id ≠ r.id := by
    intro c hc hcid
    obtain ⟨-, r', hr', hid'⟩ := htable.history.claimed c hc
    exact hnew r' hr' (hid'.trans (hcid.trans hid))
  refine ⟨⟨?_, ?_, fun m => ?_, fun x hx => ?_, ?_⟩, fun m x hx => ?_⟩
  · rw [List.map_append, List.nodup_append]
    refine ⟨htable.ids, List.nodup_singleton _, fun i hi j hj => ?_⟩
    obtain ⟨x, hx, rfl⟩ := List.mem_map.1 hi
    rw [List.map_singleton, List.mem_singleton] at hj
    rw [hj]
    exact hother x hx
  · refine List.pairwise_append.2 ⟨htable.sequences, List.pairwise_singleton _ _, fun x hx y hy => ?_⟩
    rw [List.mem_singleton.1 hy, hsequence]
    exact lt_nextSequence hx
  · rw [rowsOf_append]
    by_cases hmm : m = e.member
    · have hone : rowsOf [r] m = [r] := by simp [rowsOf, hm, hmm]
      rw [hone, hmm]
      refine (htable.chains e.member).snoc hlink hstate hcount fun p hlast => ?_
      have hp := List.mem_of_getLast? hlast
      by_cases hqueued : p.state = .queued
      · have hbusy := hbusy p hlast
        have hpos : p.attemptCount ≠ 0 := fun hzero => hbusy ⟨hqueued, hzero⟩
        omega
      · exact (htable.chains e.member).worked p hp hqueued
    · have hnone : rowsOf [r] m = [] := by simp [rowsOf, hm, Ne.symm hmm]
      rw [hnone, List.append_nil]
      exact htable.chains m
  · obtain hx | hx := List.mem_append.1 hx
    · refine (htable.row x hx).snoc (fun r' hr' hid' => ?_) (by simp) (by simp)
      cases hr'
      exact absurd hid'.symm (hother x hx)
    · rw [List.mem_singleton.1 hx]
      refine ⟨⟨?_, ?_⟩, ⟨r, by simp, rfl⟩, fun hpos => by omega, fun _ c hc => ?_, fun hs => ?_, fun v hv => ?_, ?_⟩
      · subst hr
        rfl
      · subst hr
        rfl
      · exact hunclaimed c (by simpa using hc)
      · rw [hstate] at hs
        cases hs
      · obtain ⟨c, hc, hcid⟩ := htable.history.accepted r.id v (by simpa using hv)
        exact absurd hcid (hunclaimed c hc)
      · intro r' hr' hid' q hq
        obtain hr' | hr' := List.mem_append.1 hr'
        · exact absurd (hid'.trans hid) (hnew r' hr')
        · cases List.mem_singleton.1 hr'
          exact .inl hq
  · refine htable.history.snoc (fun r' hr' c hc => ?_) (by simp) (by simp) (by simp)
    cases hr'
    exact hunclaimed c hc
  · obtain ⟨rfl, rfl⟩ | ⟨hmm, hx⟩ := newestOf_stored hx
    · exact .inl ⟨x, by simp, rfl, rfl, rfl⟩
    · have hold := (h.newest m x hx).edited (e := e) (by rwa [← hm])
      obtain ⟨y, hy, hydays⟩ | hdone := hold
      · exact .inl ⟨y, List.mem_append_left _ hy, hydays⟩
      · exact HasDays.mono (.inr hdone) fun e' he' => List.mem_append_left _ he'

theorem OutboxKeeps.enqueue (h : OutboxKeeps d.outbox log) {e : HoursEdit} {drawn : Drawn} {r : OutboxRow}
    (hnew : ∀ r', .stored r' ∈ log → r'.id ≠ drawn.id) (hd : d.enqueueHours e drawn = .ok (d', r)) :
    OutboxKeeps d'.outbox (log ++ [.stored r]) := by
  obtain ⟨p, hlast, hstate, hcount, rfl, hrows⟩ | ⟨actorId, deviceId, hr, hrows, hbusy⟩ := Device.enqueueHours_cases hd
  · obtain ⟨hp, hpm⟩ := mem_rowsOf.1 (List.mem_of_getLast? hlast)
    have hreplaced : (e.rows d).map (fun x => if x.id = p.id then x.withDays e.days else x) =
        (e.rows d).map fun x => if x.id = p.id then p.withDays e.days else x :=
      TableKeeps.update_eq (d := { d with outbox := e.rows d }) (h.edited e) hp (·.withDays e.days)
    rw [hrows, hreplaced]
    exact h.withDays hp hpm hstate hcount
  · rw [hrows]
    exact h.insert hnew hr hbusy

end ClientBridge
