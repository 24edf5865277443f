import ClientBridge.Sync.Hours

/-!
# Each week edit reaches the server once, in order

Over any run of the device's tabs, the server and other writers: an operation changes the week at
most once, after the operation it was made after; and what an accepted row says of the server is
what happened there.
-/

namespace ClientBridge

open Runs

/-- The week the server has is the last one put in place, each with a higher revision. -/
structure WeekKeeps (server : HoursServer) (log : List HoursEvent) : Prop where
  current : ∀ m x, (weekChanges log m).getLast? = some x → x = (server.revision m, server.week m)
  increasing : ∀ m, (weekChanges log m).Pairwise fun a b => a.1 < b.1

/-- What holds of the server's side of the history. -/
structure ServerKeeps (server : HoursServer) (log : List HoursEvent) : Prop extends WeekKeeps server log where
  receipts : ∀ rc ∈ server.receipts, ∃ q, .applied q rc.result ∈ log ∧ q.body = rc.body ∧ q.member = rc.member
  answered : ∀ q v, .answered q v ∈ log → ∃ q', .applied q' v ∈ log ∧ q'.body = q.body ∧ q'.member = q.member
  applied : ∀ q v, .applied q v ∈ log → .posted q ∈ log ∧ v = q.body.expectedRevision + 1
  accepted : ∀ pre id v post, log = pre ++ .accepted id v :: post → ∃ q, .applied q v ∈ pre ∧ q.body.operationId = id
  once : ∀ pre q v post, log = pre ++ .applied q v :: post → ∀ q' v', .applied q' v' ∈ pre →
    q'.body.operationId ≠ q.body.operationId
  chained : ∀ pre q v post, log = pre ++ .applied q v :: post → ∀ r, .stored r ∈ pre → r.id = q.body.operationId →
    ∀ p, r.predecessor = some p → ∃ q' v', .applied q' v' ∈ pre ∧ q'.body.operationId = p

section
variable {server : HoursServer} {log : List HoursEvent} {m : Member}

theorem weekChanges_append (log es : List HoursEvent) (m : Member) :
    weekChanges (log ++ es) m = weekChanges log m ++ weekChanges es m := List.filterMap_append ..

theorem mem_weekChanges_of_applied {q : WeekPost} {v : Int} (h : .applied q v ∈ log) :
    (v, q.body.days) ∈ weekChanges log q.member :=
  List.mem_filterMap.2 ⟨_, h, if_pos rfl⟩

/-- No week had a higher revision than the last one. -/
theorem WeekKeeps.le_revision (h : WeekKeeps server log) {x : Int × List WeekDay} (hx : x ∈ weekChanges log m) :
    x.1 ≤ server.revision m := by
  obtain ⟨pre, post, hl⟩ := List.append_of_mem hx
  rcases post.eq_nil_or_concat with rfl | ⟨post, y, rfl⟩
  · have hlast := h.current m x (by simp [hl])
    rw [hlast]
  · rw [List.concat_eq_append, ← List.cons_append, ← List.append_assoc] at hl
    have hlast := h.current m y (by rw [hl, List.getLast?_concat])
    have hlt := pairwise_iff_split.1 (h.increasing m) (pre ++ x :: post) y [] hl x (by simp)
    rw [hlast] at hlt
    exact hlt.le

/-- A week is put in place with the next revision. -/
theorem WeekKeeps.put (h : WeekKeeps server log) {days : List WeekDay} {e : HoursEvent}
    (he : ∀ m', weekChanges [e] m' = if m' = m then [(server.revision m + 1, days)] else []) :
    WeekKeeps (server.put m days) (log ++ [e]) where
  current m' x hx := by
    rw [weekChanges_append, he] at hx
    by_cases hm : m' = m
    · subst hm
      rw [if_pos rfl, List.getLast?_concat] at hx
      cases hx
      simp [HoursServer.put]
    · rw [if_neg hm, List.append_nil] at hx
      rw [h.current m' x hx]
      simp [HoursServer.put, hm]
  increasing m' := by
    rw [weekChanges_append, he]
    refine List.pairwise_append.2 ⟨h.increasing m', ?_, fun x hx y hy => ?_⟩
    · split
      · exact List.pairwise_singleton _ _
      · exact .nil
    · split at hy
      · rename_i hm
        subst hm
        have hle := h.le_revision hx
        rw [List.mem_singleton.1 hy]
        show x.1 < server.revision m' + 1
        omega
      · cases hy

theorem WeekKeeps.same (h : WeekKeeps server log) {server' : HoursServer} {es : List HoursEvent}
    (hrevision : server'.revision = server.revision) (hweek : server'.week = server.week)
    (hes : ∀ m, weekChanges es m = []) : WeekKeeps server' (log ++ es) where
  current m x hx := by
    rw [weekChanges_append, hes, List.append_nil] at hx
    rw [hrevision, hweek]
    exact h.current m x hx
  increasing m := by
    rw [weekChanges_append, hes, List.append_nil]
    exact h.increasing m

theorem ServerKeeps.of_accepted (h : ServerKeeps server log) {id : String} {v : Int} (hv : .accepted id v ∈ log) :
    ∃ q, .applied q v ∈ log ∧ q.body.operationId = id := by
  obtain ⟨pre, post, rfl⟩ := List.append_of_mem hv
  obtain ⟨q, hq, hop⟩ := h.accepted pre id v post rfl
  exact ⟨q, List.mem_append_left _ hq, hop⟩

/-- Events that apply nothing, and accept or answer only what was applied. -/
theorem ServerKeeps.append (h : ServerKeeps server log) {server' : HoursServer} {es : List HoursEvent}
    (hweek : WeekKeeps server' (log ++ es)) (hreceipts : ∀ rc ∈ server'.receipts, rc ∈ server.receipts)
    (happlied : ∀ q v, .applied q v ∉ es)
    (hanswered : ∀ q v, .answered q v ∈ es → ∃ q', .applied q' v ∈ log ∧ q'.body = q.body ∧ q'.member = q.member)
    (haccepted : ∀ id v, .accepted id v ∈ es → ∃ q, .applied q v ∈ log ∧ q.body.operationId = id) :
    ServerKeeps server' (log ++ es) := by
  refine ⟨hweek, fun rc hrc => ?_, fun q v hq => ?_, fun q v hq => ?_, fun pre id v post hl => ?_, fun pre q v post hl => ?_,
    fun pre q v post hl => ?_⟩
  · obtain ⟨q, hq, hsame⟩ := h.receipts rc (hreceipts rc hrc)
    exact ⟨q, List.mem_append_left _ hq, hsame⟩
  · have hq : ∃ q', .applied q' v ∈ log ∧ q'.body = q.body ∧ q'.member = q.member :=
      (List.mem_append.1 hq).elim (h.answered q v) (hanswered q v)
    obtain ⟨q', hq', hsame⟩ := hq
    exact ⟨q', List.mem_append_left _ hq', hsame⟩
  · obtain ⟨hposted, hv⟩ := h.applied q v ((List.mem_append.1 hq).resolve_right (happlied q v))
    exact ⟨List.mem_append_left _ hposted, hv⟩
  · obtain ⟨post', hl⟩ | ⟨hsub, hv⟩ := append_eq_append_cons hl
    · exact h.accepted pre id v post' hl
    · obtain ⟨q, hq, hop⟩ := haccepted id v hv
      exact ⟨q, hsub hq, hop⟩
  · obtain ⟨post', hl⟩ | ⟨-, hq⟩ := append_eq_append_cons hl
    · exact h.once pre q v post' hl
    · exact absurd hq (happlied q v)
  · obtain ⟨post', hl⟩ | ⟨-, hq⟩ := append_eq_append_cons hl
    · exact h.chained pre q v post' hl
    · exact absurd hq (happlied q v)

/-- Posts of one operation are the same post. -/
theorem LogKeeps.same_post (h : LogKeeps log) {q q' : WeekPost} (hq : .posted q ∈ log) (hq' : .posted q' ∈ log)
    (hop : q.body.operationId = q'.body.operationId) : q.body = q'.body ∧ q.member = q'.member := by
  obtain ⟨c, hc, hbody, hm⟩ := h.posted q hq
  obtain ⟨c', hc', hbody', hm'⟩ := h.posted q' hq'
  have hid : c.id = c'.id := by
    rw [← (h.claimed c hc).1, ← (h.claimed c' hc').1, hbody, hbody', hop]
  obtain ⟨hsame, hsame'⟩ := h.frozen c c' hc hc' hid
  exact ⟨by rw [← hbody, hsame, hbody'], by rw [← hm, hsame', hm']⟩

/-- A post taken on is answered with what it, or the same post before, came to. -/
theorem HoursServer.replace_cases {t : HoursServer} {q : WeekPost} {a : HoursAnswer}
    (h : server.replace q = .ok (t, a)) :
    (a.applied = false ∧ t = server ∧ ∃ rc ∈ server.receipts, rc.member = q.member ∧ rc.body = q.body ∧
      a.revision = rc.result) ∨
    (a.applied = true ∧ server.revision q.member = q.body.expectedRevision ∧
      a.revision = server.revision q.member + 1 ∧
      ∃ rc : HoursReceipt, rc.member = q.member ∧ rc.body = q.body ∧ rc.result = q.body.expectedRevision + 1 ∧
        t = { server.put q.member q.body.days with receipts := server.receipts ++ [rc] }) := by
  unfold HoursServer.replace at h
  split at h
  · cases h
  split at h
  · rename_i rc hrc
    split at h
    · rename_i hsame
      cases h
      exact .inl ⟨rfl, rfl, rc, List.mem_of_find?_eq_some hrc, hsame.1, hsame.2, rfl⟩
    · cases h
  · split at h
    · cases h
    · rename_i hrevision
      cases h
      exact .inr ⟨rfl, not_not.1 hrevision, rfl, _, rfl, rfl, rfl, rfl⟩

/-- A post is applied: its operation was not before, but the one it was made after was. -/
theorem ServerKeeps.apply (h : ServerKeeps server log) (hlog : LogKeeps log) {q : WeekPost} (hq : .posted q ∈ log)
    (hrevision : server.revision q.member = q.body.expectedRevision) {rc : HoursReceipt} (hm : rc.member = q.member)
    (hbody : rc.body = q.body) (hresult : rc.result = q.body.expectedRevision + 1) :
    ServerKeeps { server.put q.member q.body.days with receipts := server.receipts ++ [rc] }
      (log ++ [.applied q (server.revision q.member + 1)]) := by
  have hput : WeekKeeps (server.put q.member q.body.days) (log ++ [.applied q (server.revision q.member + 1)]) :=
    h.toWeekKeeps.put fun m' => by
      by_cases hm' : m' = q.member
      · rw [if_pos hm']
        simp [weekChanges, hm']
      · rw [if_neg hm']
        simp [weekChanges, Ne.symm hm']
  refine ⟨⟨hput.current, hput.increasing⟩, fun rc' hrc' => ?_, fun q' v hq' => ?_, fun q' v hq' => ?_,
    fun pre id v post hl => ?_, fun pre q' v post hl => ?_, fun pre q' v post hl r hr hid p hp => ?_⟩
  · obtain hrc' | hrc' := List.mem_append.1 hrc'
    · obtain ⟨q', hq', hsame⟩ := h.receipts rc' hrc'
      exact ⟨q', List.mem_append_left _ hq', hsame⟩
    · rw [List.mem_singleton.1 hrc', hresult, ← hrevision]
      exact ⟨q, by simp, hbody.symm, hm.symm⟩
  · obtain ⟨q'', hq'', hsame⟩ := h.answered q' v (by simpa using hq')
    exact ⟨q'', List.mem_append_left _ hq'', hsame⟩
  · obtain hq' | hq' := List.mem_append.1 hq'
    · obtain ⟨hposted, hv⟩ := h.applied q' v hq'
      exact ⟨List.mem_append_left _ hposted, hv⟩
    · cases List.mem_singleton.1 hq'
      exact ⟨List.mem_append_left _ hq, by rw [hrevision]⟩
  · obtain ⟨-, he, -⟩ | ⟨post', hl, -⟩ := snoc_eq_append_cons hl
    · cases he
    · exact h.accepted pre id v post' hl
  · intro q'' v'' hq'' hop
    obtain ⟨rfl, he, -⟩ | ⟨post', hl, -⟩ := snoc_eq_append_cons hl
    · cases he
      -- the same operation expects the same revision, which the week is past
      obtain ⟨hposted, hv⟩ := h.applied q'' v'' hq''
      obtain ⟨hsame, hmember⟩ := hlog.same_post hposted hq hop
      have hle := h.le_revision (mem_weekChanges_of_applied hq'')
      rw [hmember, hv, hsame, hrevision] at hle
      omega
    · exact h.once pre q' v post' hl q'' v'' hq'' hop
  · obtain ⟨rfl, he, -⟩ | ⟨post', hl, -⟩ := snoc_eq_append_cons hl
    · cases he
      obtain ⟨c, hc, hcbody, -⟩ := hlog.posted q hq
      have hcid : r.id = c.id := by rw [hid, ← hcbody, (hlog.claimed c hc).1]
      obtain ⟨v', hv'⟩ := hlog.parents c hc r hr hcid p hp
      obtain ⟨q', hq', hop⟩ := h.of_accepted hv'
      exact ⟨q', v', hq', hop⟩
    · exact h.chained pre q' v post' hl r hr hid p hp

end

/-! ## Steps -/

section
variable {π : Type} {p q : π} {s s' : SyncStore} {x x' y : UploadPlace}

/-- The device writes nothing of what the server does, and accepts what it was answered. -/
theorem OutboxStep.events {ok : List HoursEvent → WeekPost → Int → Prop} {o o' : OutboxStore}
    (hs : OutboxStep ok p o x o' x') : ∃ es, o'.log = o.log ++ es ∧ (∀ m, weekChanges es m = []) ∧
      (∀ q v, .applied q v ∉ es) ∧ (∀ q v, .answered q v ∉ es) ∧
      ∀ id v, .accepted id v ∈ es → ∃ r q, x = .posting r q ∧ r.id = id ∧ ok o.log q v := by
  cases hs with
  | enqueue | discardHours | claim | post => exact ⟨_, rfl, fun m => rfl, by simp, by simp, by simp⟩
  | discardQueue =>
    refine ⟨_, rfl, fun m => ?_, by simp, by simp, by simp⟩
    rw [weekChanges, List.filterMap_map]
    exact List.filterMap_eq_nil_iff.2 fun _ _ => rfl
  | accept revision hok =>
    refine ⟨_, rfl, fun m => rfl, by simp, by simp, fun id v hv => ?_⟩
    cases List.mem_singleton.1 hv
    exact ⟨_, _, rfl, rfl, hok⟩
  | retryNow | replicate | pass | unseen | probe | reachable | unreachable | none | retry | reject | stop =>
    exact ⟨[], (List.append_nil _).symm, fun m => rfl, by simp, by simp, by simp⟩

/-- What the device keeps and what the server keeps. -/
structure SyncKeeps (s : SyncStore) : Prop where
  outbox : OutboxKeeps s.device.outbox s.log
  server : ServerKeeps s.server s.log

/-- What the server does leaves the outbox as it was. -/
theorem OutboxKeeps.served {rows : List OutboxRow} {log : List HoursEvent} (h : OutboxKeeps rows log) {e : HoursEvent}
    (he : (∃ q v, e = .applied q v) ∨ (∃ q v, e = .answered q v) ∨ ∃ m v days, e = .changed m v days) :
    OutboxKeeps rows (log ++ [e]) := by
  obtain ⟨q, v, rfl⟩ | ⟨q, v, rfl⟩ | ⟨m, v, days, rfl⟩ := he
  · exact h.event (fun r hr => (h.row r hr).snoc (by simp) (by simp) (by simp))
      (h.history.snoc (by simp) (by simp) (by simp) (by simp)) fun m => newestOf_snoc log _ m
  · exact h.event (fun r hr => (h.row r hr).snoc (by simp) (by simp) (by simp))
      (h.history.snoc (by simp) (by simp) (by simp) (by simp)) fun m => newestOf_snoc log _ m
  · exact h.event (fun r hr => (h.row r hr).snoc (by simp) (by simp) (by simp))
      (h.history.snoc (by simp) (by simp) (by simp) (by simp)) fun m => newestOf_snoc log _ m

/-- An answer with what was applied. -/
theorem ServerKeeps.answer {server : HoursServer} {log : List HoursEvent} (h : ServerKeeps server log) {q : WeekPost} {v : Int}
    (hq : ∃ q', .applied q' v ∈ log ∧ q'.body = q.body ∧ q'.member = q.member) :
    ServerKeeps server (log ++ [.answered q v]) := by
  refine h.append (h.toWeekKeeps.same rfl rfl fun m => rfl) (fun rc hrc => hrc) (by simp) (fun q' v' hq' => ?_) (by simp)
  cases List.mem_singleton.1 hq'
  exact hq

theorem SyncStep.keeps (hs : SyncStep p s x s' x') (h : SyncKeeps s) (hx : UploadKnows s.log x) : SyncKeeps s' := by
  cases hs with
  | device hs =>
    refine ⟨hs.keeps h.outbox hx, ?_⟩
    obtain ⟨es, hlog, hweek, happlied, hanswered, haccepted⟩ := hs.events
    dsimp only
    rw [hlog]
    refine h.server.append (h.server.toWeekKeeps.same rfl rfl hweek) (fun rc hrc => hrc) happlied
      (fun q v hq => absurd hq (hanswered q v)) fun id v hv => ?_
    obtain ⟨r, q, rfl, rfl, hok⟩ := haccepted id v hv
    obtain ⟨hclaimed, -, hbody, -⟩ := hx
    obtain ⟨q', hq', hsame, -⟩ := h.server.answered q v hok
    exact ⟨q', hq', by rw [hsame, hbody, (h.outbox.history.claimed r hclaimed).1]⟩
  | serve hq hserve =>
    obtain ⟨happlied, rfl, rc, hrc, hm, hbody, hv⟩ | ⟨happlied, hrevision, hv, rc, hm, hbody, hresult, rfl⟩ :=
      HoursServer.replace_cases hserve
    · rw [happlied, if_neg Bool.false_ne_true, List.append_nil]
      refine ⟨h.outbox.served (.inr (.inl ⟨_, _, rfl⟩)), h.server.answer ?_⟩
      obtain ⟨q', hq', hbody', hm'⟩ := h.server.receipts rc hrc
      exact ⟨q', hv ▸ hq', hbody'.trans hbody, hm'.trans hm⟩
    · rw [happlied, if_pos rfl, hv]
      have hserver := h.server.apply h.outbox.history hq hrevision hm hbody hresult
      refine ⟨(h.outbox.served (.inl ⟨_, _, rfl⟩)).served (.inr (.inl ⟨_, _, rfl⟩)), hserver.answer ?_⟩
      exact ⟨_, by simp, rfl, rfl⟩
  | other m days =>
    refine ⟨h.outbox.served (.inr (.inr ⟨_, _, _, rfl⟩)), ?_⟩
    refine h.server.append (h.server.toWeekKeeps.put fun m' => ?_) (fun rc hrc => hrc) (by simp) (by simp) (by simp)
    by_cases hm' : m' = m
    · rw [if_pos hm']
      simp [weekChanges, hm']
    · rw [if_neg hm']
      simp [weekChanges, Ne.symm hm']
  | prune keep =>
    refine ⟨h.outbox, ?_⟩
    have hpruned : ServerKeeps { s.server with receipts := s.server.receipts.filter keep } (s.log ++ []) := h.server.append
      (h.server.toWeekKeeps.same rfl rfl fun m => rfl) (fun rc hrc => (List.mem_filter.1 hrc).1) (by simp) (by simp) (by simp)
    rwa [List.append_nil] at hpruned

theorem SyncStep.log_subset (hs : SyncStep p s x s' x') : s.log ⊆ s'.log := by
  cases hs with
  | device hs => exact hs.log_subset
  | serve hq hserve =>
    rw [List.append_assoc]
    exact List.subset_append_left _ _
  | other m days => exact List.subset_append_left _ _
  | prune keep => exact fun _ he => he

theorem SyncStep.own (hs : SyncStep p s x s' x') (h : SyncKeeps s) (hx : UploadKnows s.log x) : UploadKnows s'.log x' := by
  have hsub := hs.log_subset
  cases hs with
  | device hs => exact hs.own h.outbox hx
  | serve | other | prune => exact hx.mono hsub

theorem sync_kept : Kept (SyncStep (π := π)) SyncKeeps fun _ s x => UploadKnows s.log x :=
  ⟨fun hs h hx => hs.keeps h hx, fun hs h hx => hs.own h hx, fun hs _ _ _ hy => hy.mono hs.log_subset⟩

end

/-! ## Over any run -/

structure WeeksInOrder (s : SyncStore) : Prop where
  /-- An operation changes the server's week at most once. -/
  once : ∀ pre q v post, s.log = pre ++ .applied q v :: post → ∀ q' v', .applied q' v' ∈ pre ∨ .applied q' v' ∈ post →
    q'.body.operationId ≠ q.body.operationId
  /-- The changes of a week have increasing revisions, and the last one is what the server has. -/
  weeks : WeekKeeps s.server s.log
  /-- A row is not posted before the row it was stored after was accepted. -/
  posted : ∀ pre q post, s.log = pre ++ .posted q :: post → ∀ r, .stored r ∈ pre → r.id = q.body.operationId →
    ∀ p, r.predecessor = some p → ∃ v, .accepted p v ∈ pre
  /-- Nor does it change the week before that row did. -/
  chained : ∀ pre q v post, s.log = pre ++ .applied q v :: post → ∀ r, .stored r ∈ pre → r.id = q.body.operationId →
    ∀ p, r.predecessor = some p → ∃ q' v', .applied q' v' ∈ pre ∧ q'.body.operationId = p
  /-- An accepted row has the revision at which its days became the week. -/
  result : ∀ r ∈ s.device.outbox, r.state = .accepted → ∃ q v, r.resultRevision = some v ∧ .applied q v ∈ s.log ∧
    q.body = r.payload ∧ q.member = r.member ∧ (v, r.payload.days) ∈ weekChanges s.log r.member
  /-- A row accepted is not claimed again, and no post of it changes the week after. -/
  accepted : ∀ pre id v post, s.log = pre ++ .accepted id v :: post → (∀ c, .claimed c ∈ post → c.id ≠ id) ∧
    ∀ q v', .applied q v' ∈ post → q.body.operationId ≠ id
  /-- It is posted after that under a claim made before. -/
  stalled : ∀ pre id v post, s.log = pre ++ .accepted id v :: post → ∀ q, .posted q ∈ post → q.body.operationId = id →
    ∃ c, .claimed c ∈ pre ∧ c.id = id ∧ c.payload = q.body

theorem SyncKeeps.not_claimed {s : SyncStore} (h : SyncKeeps s) {pre post : List HoursEvent} {id : String} {v : Int}
    (hl : s.log = pre ++ .accepted id v :: post) {c : OutboxRow} (hc : .claimed c ∈ post) : c.id ≠ id := by
  rintro rfl
  obtain ⟨l, post, rfl⟩ := List.append_of_mem hc
  have hl' : s.log = (pre ++ .accepted c.id v :: l) ++ .claimed c :: post := by simp [hl]
  exact h.outbox.history.final _ c post hl' v (by simp)

theorem SyncKeeps.inOrder {s : SyncStore} (h : SyncKeeps s) : WeeksInOrder s where
  once pre q v post hl q' v' hq' := by
    obtain hq' | hq' := hq'
    · exact h.server.once pre q v post hl q' v' hq'
    · obtain ⟨l, post, rfl⟩ := List.append_of_mem hq'
      have hl' : s.log = (pre ++ .applied q v :: l) ++ .applied q' v' :: post := by simp [hl]
      exact (h.server.once _ q' v' post hl' q v (by simp)).symm
  weeks := h.server.toWeekKeeps
  posted := h.outbox.history.ordered
  chained := h.server.chained
  result r hr hstate := by
    obtain ⟨v, hv, hlog⟩ := (h.outbox.row r hr).accepted hstate
    obtain ⟨q, hq, hop⟩ := h.server.of_accepted hlog
    obtain ⟨c, hc, hcid, hcpayload, hcm⟩ := (h.outbox.row r hr).claimed (h.outbox.worked hr (by simp [hstate]))
    obtain ⟨c', hc', hbody, hm⟩ := h.outbox.history.posted q (h.server.applied q v hq).1
    have hid : c'.id = c.id := by rw [hcid, ← hop, ← hbody, (h.outbox.history.claimed c' hc').1]
    obtain ⟨hsame, hsame'⟩ := h.outbox.history.frozen c' c hc' hc hid
    have hqr : q.body = r.payload := by rw [← hbody, hsame, hcpayload]
    have hqm : q.member = r.member := by rw [← hm, hsame', hcm]
    have hchange := mem_weekChanges_of_applied hq
    rw [hqr, hqm] at hchange
    exact ⟨q, v, hv, hq, hqr, hqm, hchange⟩
  accepted pre id v post hl := by
    refine ⟨fun c hc => h.not_claimed hl hc, fun q v' hq hop => ?_⟩
    obtain ⟨q₀, hq₀, hop₀⟩ := h.server.accepted pre id v post hl
    obtain ⟨l, post, rfl⟩ := List.append_of_mem hq
    have hl' : s.log = (pre ++ .accepted id v :: l) ++ .applied q v' :: post := by simp [hl]
    exact h.server.once _ q v' post hl' q₀ v (List.mem_append_left _ hq₀) (hop₀.trans hop.symm)
  stalled pre id v post hl q hq hop := by
    obtain ⟨c, hc, hbody, -⟩ := h.outbox.history.posted q (by simp [hl, hq])
    have hid : c.id = id := by rw [← (h.outbox.history.claimed c hc).1, hbody, hop]
    rw [hl] at hc
    rcases List.mem_append.1 hc with hpre | hpost
    · exact ⟨c, hpre, hid, hbody⟩
    · rcases List.mem_cons.1 hpost with heq | hpost
      · cases heq
      · exact absurd hid (h.not_claimed hl hpost)

section
variable {π : Type} [DecidableEq π]

/-- A new device, and a server that has no receipt of it. -/
def syncStart (owner deviceId : Option String) (revisions : Member → Option Int) (revision : Member → Int)
    (week : Member → List WeekDay) : World π SyncStore UploadPlace :=
  ⟨⟨⟨owner, deviceId, [], revisions⟩, ⟨revision, week, []⟩, []⟩, fun _ => .idle⟩

/-- **Week edits are applied at most once and in order**, whatever is lost, late or repeated. -/
theorem week_edits_in_order {owner deviceId : Option String} {revisions : Member → Option Int} {revision : Member → Int}
    {week : Member → List WeekDay} {ps : List π} {w : World π SyncStore UploadPlace}
    (hrun : Run (Interleaved SyncStep) (syncStart owner deviceId revisions revision week) ps w) : WeeksInOrder w.store := by
  have hstart : SyncKeeps ⟨⟨owner, deviceId, [], revisions⟩, ⟨revision, week, []⟩, []⟩ := by
    refine ⟨outboxKeeps_start, ⟨⟨fun m x hx => (by cases hx), fun m => .nil⟩, ?_, ?_, ?_, ?_, ?_, ?_⟩⟩ <;> simp
  have hknows := sync_kept.run hrun ⟨hstart, fun _ => trivial⟩
  exact hknows.1.inOrder

end

/-- Two tabs claim the same row, the first stalling past its lease; it posts after the second's
post was accepted. -/
theorem stalled_tab_run : ∃ ps, ∃ w : World Bool SyncStore UploadPlace,
    Run (Interleaved SyncStep) (syncStart (some "user_1") (some "dev_1") (fun _ => none) (fun _ => 0) fun _ => []) ps w ∧
      ∃ pre q, w.store.log = pre ++ [.posted q] ∧ q.body.operationId = "op_1" ∧ .accepted "op_1" 1 ∈ pre := by
  refine ⟨_, _, .cons (.from (p := true) rfl (.device (.enqueue (amyEdit 0 none) (drawnAt "op_1") (by decide) rfl)))
    (.cons (.from (p := true) rfl (.device (.pass 0 rfl)))
    (.cons (.from (p := true) rfl (.device (.claim 0 rfl)))
    (.cons (.from (p := false) rfl (.device (.pass 20000 rfl)))
    (.cons (.from (p := false) rfl (.device (.claim 20000 rfl)))
    (.cons (.from (p := false) rfl (.device (.post "user_1")))
    (.cons (.from (p := false) rfl (.serve (List.mem_append_right _ List.mem_cons_self) rfl))
    (.cons (.from (p := false) rfl (.device (.accept 1 (List.mem_append_right _ List.mem_cons_self))))
    (.cons (.from (p := true) rfl (.device (.post "user_1"))) .nil)))))))), _, _, rfl, rfl, ?_⟩
  exact List.mem_append_right _ List.mem_cons_self

/-- A row can be posted after it was accepted. -/
theorem accepted_week_posted : ¬ ∀ (ps : List Bool) (w : World Bool SyncStore UploadPlace),
    Run (Interleaved SyncStep) (syncStart (some "user_1") (some "dev_1") (fun _ => none) (fun _ => 0) fun _ => []) ps w →
      ∀ pre q post, w.store.log = pre ++ .posted q :: post → ∀ v, .accepted q.body.operationId v ∉ pre := by
  intro h
  obtain ⟨ps, w, hrun, pre, q, hlog, hop, haccepted⟩ := stalled_tab_run
  exact h ps w hrun pre q [] hlog 1 (hop ▸ haccepted)

theorem stalled_week_in_order : ∃ w : World Bool SyncStore UploadPlace,
    .accepted "op_1" 1 ∈ w.store.log ∧ WeeksInOrder w.store := by
  obtain ⟨ps, w, hrun, pre, q, hlog, -, haccepted⟩ := stalled_tab_run
  exact ⟨w, hlog ▸ List.mem_append_left _ haccepted, week_edits_in_order hrun⟩

end ClientBridge
