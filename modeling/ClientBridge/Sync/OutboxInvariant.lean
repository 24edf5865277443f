import ClientBridge.Sync.OutboxChain

/-!
# What the outbox keeps

`RowKeeps` ties a row to what happened so far: the payload it was claimed with, whether it was
accepted, whether it still waits for the row it was made after.  `LogKeeps` is about the history
alone, and `OutboxKeeps` puts both together with the chains of all members.
-/

namespace ClientBridge

open Runs

structure RowKeeps (log : List HoursEvent) (r : OutboxRow) : Prop where
  named : r.payload.operationId = r.id ∧ r.payload.businessId = r.member.businessId
  stored : ∃ r', .stored r' ∈ log ∧ r'.id = r.id
  /-- The payload of an attempt is the one it was claimed with. -/
  claimed : 0 < r.attemptCount → ∃ c, .claimed c ∈ log ∧ c.id = r.id ∧ c.payload = r.payload ∧ c.member = r.member
  unclaimed : r.attemptCount = 0 → ∀ c, .claimed c ∈ log → c.id ≠ r.id
  accepted : r.state = .accepted → ∃ v, r.resultRevision = some v ∧ .accepted r.id v ∈ log
  final : ∀ v, .accepted r.id v ∈ log → r.state = .accepted
  parents : ∀ r', .stored r' ∈ log → r'.id = r.id → ∀ p, r'.predecessor = some p →
    r.predecessor = some p ∨ ∃ v, .accepted p v ∈ log

structure LogKeeps (log : List HoursEvent) : Prop where
  /-- A row is claimed with one payload, however often. -/
  frozen : ∀ c c', .claimed c ∈ log → .claimed c' ∈ log → c.id = c'.id → c.payload = c'.payload ∧ c.member = c'.member
  claimed : ∀ c, .claimed c ∈ log → c.payload.operationId = c.id ∧ ∃ r, .stored r ∈ log ∧ r.id = c.id
  posted : ∀ q, .posted q ∈ log → ∃ c, .claimed c ∈ log ∧ c.payload = q.body ∧ c.member = q.member
  accepted : ∀ id v, .accepted id v ∈ log → ∃ c, .claimed c ∈ log ∧ c.id = id
  parents : ∀ c, .claimed c ∈ log → ∀ r, .stored r ∈ log → r.id = c.id → ∀ p, r.predecessor = some p →
    ∃ v, .accepted p v ∈ log
  /-- A row accepted is not claimed again. -/
  final : ∀ pre c post, log = pre ++ .claimed c :: post → ∀ v, .accepted c.id v ∉ pre
  /-- A row is posted after the row it was made after was accepted. -/
  ordered : ∀ pre q post, log = pre ++ .posted q :: post → ∀ r, .stored r ∈ pre → r.id = q.body.operationId →
    ∀ p, r.predecessor = some p → ∃ v, .accepted p v ∈ pre

/-- The row a member's newest days were stored in, unless they were discarded since. -/
def newestOf (log : List HoursEvent) (m : Member) : Option OutboxRow :=
  log.foldl (fun newest e => match e with
    | .stored r => if r.member = m then some r else newest
    | .discarded m' => if m' = m then none else newest
    | _ => newest) none

/-- A row that has days of a member, or the claim under which they were accepted. -/
def HasDays (rows : List OutboxRow) (log : List HoursEvent) (m : Member) (id : String) (days : List WeekDay) : Prop :=
  (∃ r ∈ rows, r.id = id ∧ r.member = m ∧ r.payload.days = days) ∨
    ∃ c v, .claimed c ∈ log ∧ c.id = id ∧ c.member = m ∧ c.payload.days = days ∧ .accepted id v ∈ log

structure TableKeeps (rows : List OutboxRow) (log : List HoursEvent) : Prop where
  ids : (rows.map (·.id)).Nodup
  sequences : rows.Pairwise fun a b => a.sequence < b.sequence
  chains : ∀ m, Chain (rowsOf rows m)
  row : ∀ r ∈ rows, RowKeeps log r
  history : LogKeeps log

structure OutboxKeeps (rows : List OutboxRow) (log : List HoursEvent) : Prop extends TableKeeps rows log where
  newest : ∀ m r, newestOf log m = some r → HasDays rows log m r.id r.payload.days

/-- A row rewritten without a change to what is kept of it. -/
structure SameRow (log : List HoursEvent) (r r' : OutboxRow) : Prop where
  id : r'.id = r.id
  member : r'.member = r.member
  sequence : r'.sequence = r.sequence
  count : r'.attemptCount = r.attemptCount
  payload : 0 < r.attemptCount → r'.payload = r.payload
  operation : r'.payload.operationId = r.payload.operationId
  business : r'.payload.businessId = r.payload.businessId
  days : r'.payload.days = r.payload.days
  accepted : r'.state = .accepted ↔ r.state = .accepted
  result : r.state = .accepted → r'.resultRevision = r.resultRevision
  predecessor : r'.predecessor = r.predecessor ∨ ∃ p v, r.predecessor = some p ∧ .accepted p v ∈ log

section
variable {log : List HoursEvent} {r r' : OutboxRow}

theorem SameRow.refl (log : List HoursEvent) (r : OutboxRow) : SameRow log r r :=
  ⟨rfl, rfl, rfl, rfl, fun _ => rfl, rfl, rfl, rfl, .rfl, fun _ => rfl, .inl rfl⟩

theorem RowKeeps.same (h : RowKeeps log r) (hs : SameRow log r r') : RowKeeps log r' where
  named := by rw [hs.operation, hs.business, hs.id, hs.member]; exact h.named
  stored := by rw [hs.id]; exact h.stored
  claimed hcount := by
    rw [hs.count] at hcount
    rw [hs.id, hs.payload hcount, hs.member]
    exact h.claimed hcount
  unclaimed hcount := by
    rw [hs.count] at hcount
    rw [hs.id]
    exact h.unclaimed hcount
  accepted hstate := by
    have hstate := hs.accepted.1 hstate
    rw [hs.result hstate, hs.id]
    exact h.accepted hstate
  final v hv := hs.accepted.2 (h.final v (hs.id ▸ hv))
  parents r₀ hr₀ hid p hp := by
    obtain hparent | hdone := h.parents r₀ hr₀ (hid.trans hs.id) p hp
    · obtain hsame | ⟨p', v, hp', hv⟩ := hs.predecessor
      · exact .inl (hsame.trans hparent)
      · rw [hparent] at hp'
        cases hp'
        exact .inr ⟨v, hv⟩
    · exact .inr hdone

end

section
variable {rows : List OutboxRow} {log : List HoursEvent} {f : OutboxRow → OutboxRow} {k : OutboxRow → Bool}

theorem rowsOf_map (hf : ∀ r ∈ rows, (f r).member = r.member) (m : Member) :
    rowsOf (rows.map f) m = (rowsOf rows m).map f := by
  unfold rowsOf
  rw [List.filter_map]
  congr 1
  refine List.filter_congr fun r hr => ?_
  rw [Function.comp_apply, hf r hr]

theorem rowsOf_filter (rows : List OutboxRow) (k : OutboxRow → Bool) (m : Member) :
    rowsOf (rows.filter k) m = (rowsOf rows m).filter k := by
  unfold rowsOf
  rw [List.filter_filter, List.filter_filter]
  exact List.filter_congr fun r _ => Bool.and_comm _ _

theorem rowsOf_append (rows rows' : List OutboxRow) (m : Member) :
    rowsOf (rows ++ rows') m = rowsOf rows m ++ rowsOf rows' m := List.filter_append ..

theorem mem_rowsOf {m : Member} {r : OutboxRow} : r ∈ rowsOf rows m ↔ r ∈ rows ∧ r.member = m := by
  unfold rowsOf
  rw [List.mem_filter, decide_eq_true_iff]

theorem TableKeeps.attempted (h : TableKeeps rows log) {r c : OutboxRow} (hr : r ∈ rows) (hc : .claimed c ∈ log)
    (hid : c.id = r.id) : 0 < r.attemptCount := by
  by_contra hcount
  exact (h.row r hr).unclaimed (by omega) c hc hid

theorem TableKeeps.eq_of_id (h : TableKeeps rows log) {r r' : OutboxRow} (hr : r ∈ rows) (hr' : r' ∈ rows)
    (hid : r.id = r'.id) : r = r' := List.inj_on_of_nodup_map h.ids hr hr' hid

theorem HasDays.mono {log' : List HoursEvent} {m : Member} {id : String} {days : List WeekDay}
    (h : HasDays rows log m id days) (hsub : ∀ e ∈ log, e ∈ log') : HasDays rows log' m id days := by
  obtain hrow | ⟨c, v, hc, hid, hm, hdays, hv⟩ := h
  · exact .inl hrow
  · exact .inr ⟨c, v, hsub _ hc, hid, hm, hdays, hsub _ hv⟩

/-- Rows that stay the same, less some accepted ones. -/
theorem OutboxKeeps.rewrite (h : OutboxKeeps rows log) (hsame : ∀ r ∈ rows, SameRow log r (f r))
    (hk : ∀ r ∈ rows, k (f r) = false → r.state = .accepted)
    (hchain : ∀ m, Chain (((rowsOf rows m).map f).filter k)) : OutboxKeeps ((rows.map f).filter k) log := by
  have hids : (rows.map f).map (·.id) = rows.map (·.id) := by
    rw [List.map_map]
    exact List.map_congr_left fun r hr => (hsame r hr).id
  refine ⟨⟨?_, ?_, fun m => ?_, fun r' hr' => ?_, h.history⟩, fun m r hr => ?_⟩
  · have hnodup : ((rows.map f).map (·.id)).Nodup := hids ▸ h.ids
    exact hnodup.sublist (List.filter_sublist.map _)
  · refine List.Pairwise.filter _ ?_
    rw [List.pairwise_map]
    refine h.sequences.imp_of_mem fun ha hb hlt => ?_
    rwa [(hsame _ ha).sequence, (hsame _ hb).sequence]
  · rw [rowsOf_filter, rowsOf_map (fun r hr => (hsame r hr).member)]
    exact hchain m
  · obtain ⟨r, hr, rfl⟩ := List.mem_map.1 (List.mem_filter.1 hr').1
    exact (h.row r hr).same (hsame r hr)
  · obtain ⟨r', hr', hid, hm, hdays⟩ | hdone := h.newest m r hr
    · by_cases hkeep : k (f r') = true
      · left
        refine ⟨f r', ?_, (hsame r' hr').id.trans hid, (hsame r' hr').member.trans hm, (hsame r' hr').days.trans hdays⟩
        exact List.mem_filter.2 ⟨List.mem_map_of_mem hr', hkeep⟩
      · right
        have hstate := hk r' hr' (by simpa using hkeep)
        obtain ⟨v, -, hv⟩ := (h.row r' hr').accepted hstate
        have hworked : 0 < r'.attemptCount :=
          (h.chains m).worked r' (mem_rowsOf.2 ⟨hr', hm⟩) (by simp [hstate])
        obtain ⟨c, hc, hcid, hcpayload, hcm⟩ := (h.row r' hr').claimed hworked
        exact ⟨c, v, hc, hcid.trans hid, hcm.trans hm, by rw [hcpayload, hdays], hid ▸ hv⟩
    · exact .inr hdone

/-- The same, with no row gone. -/
theorem OutboxKeeps.update (h : OutboxKeeps rows log) (hsame : ∀ r ∈ rows, SameRow log r (f r))
    (hstate : ∀ r ∈ rows, (f r).state ≠ .queued → 0 < (f r).attemptCount)
    (hlink : ∀ r ∈ rows, (f r).predecessor = r.predecessor) : OutboxKeeps (rows.map f) log := by
  have hkeeps := h.rewrite (k := fun _ => true) hsame (by simp) fun m => ?_
  · rwa [List.filter_true] at hkeeps
  · rw [List.filter_true]
    have hmem : ∀ r ∈ rowsOf rows m, r ∈ rows := fun r hr => (mem_rowsOf.1 hr).1
    refine (h.chains m).map (fun r hr => (hsame r (hmem r hr)).id) (fun r hr => hlink r (hmem r hr))
      (fun r hr => (hsame r (hmem r hr)).count.ge) (fun r hr => (hsame r (hmem r hr)).accepted.2)
      (fun r hr => hstate r (hmem r hr)) ?_
    intro pre r post hl hcount hpos
    rw [(hsame r (hmem r (by simp [hl]))).count, hcount] at hpos
    exact absurd hpos (lt_irrefl 0)

/-! ## One more event -/

theorem newestOf_snoc (log : List HoursEvent) (e : HoursEvent) (m : Member) :
    newestOf (log ++ [e]) m = match e with
      | .stored r => if r.member = m then some r else newestOf log m
      | .discarded m' => if m' = m then none else newestOf log m
      | _ => newestOf log m := by
  unfold newestOf
  rw [List.foldl_append]
  cases e <;> rfl

theorem RowKeeps.snoc {r : OutboxRow} (h : RowKeeps log r) {e : HoursEvent}
    (hstored : ∀ r', e = .stored r' → r'.id = r.id → ∀ p, r'.predecessor = some p → r.predecessor = some p)
    (hclaimed : ∀ c, e = .claimed c → c.id = r.id → 0 < r.attemptCount)
    (haccepted : ∀ v, e = .accepted r.id v → r.state = .accepted) : RowKeeps (log ++ [e]) r where
  named := h.named
  stored := by
    obtain ⟨r', hr', hid⟩ := h.stored
    exact ⟨r', List.mem_append_left _ hr', hid⟩
  claimed hcount := by
    obtain ⟨c, hc, hsame⟩ := h.claimed hcount
    exact ⟨c, List.mem_append_left _ hc, hsame⟩
  unclaimed hcount c hc hid := by
    obtain hc | hc := List.mem_append.1 hc
    · exact h.unclaimed hcount c hc hid
    · have hpos := hclaimed c (List.mem_singleton.1 hc).symm hid
      omega
  accepted hstate := by
    obtain ⟨v, hv, hlog⟩ := h.accepted hstate
    exact ⟨v, hv, List.mem_append_left _ hlog⟩
  final v hv := by
    obtain hv | hv := List.mem_append.1 hv
    · exact h.final v hv
    · exact haccepted v (List.mem_singleton.1 hv).symm
  parents r' hr' hid p hp := by
    obtain hr' | hr' := List.mem_append.1 hr'
    · obtain hparent | ⟨v, hv⟩ := h.parents r' hr' hid p hp
      · exact .inl hparent
      · exact .inr ⟨v, List.mem_append_left _ hv⟩
    · exact .inl (hstored r' (List.mem_singleton.1 hr').symm hid p hp)

/-- What a claim has to know. -/
structure MayClaim (log : List HoursEvent) (c : OutboxRow) : Prop where
  named : c.payload.operationId = c.id
  stored : ∃ r, .stored r ∈ log ∧ r.id = c.id
  frozen : ∀ c', .claimed c' ∈ log → c'.id = c.id → c'.payload = c.payload ∧ c'.member = c.member
  fresh : ∀ v, .accepted c.id v ∉ log
  parents : ∀ r, .stored r ∈ log → r.id = c.id → ∀ p, r.predecessor = some p → ∃ v, .accepted p v ∈ log

theorem LogKeeps.snoc (h : LogKeeps log) {e : HoursEvent}
    (hstored : ∀ r, e = .stored r → ∀ c, .claimed c ∈ log → c.id ≠ r.id)
    (hclaimed : ∀ c, e = .claimed c → MayClaim log c)
    (hposted : ∀ q, e = .posted q → ∃ c, .claimed c ∈ log ∧ c.payload = q.body ∧ c.member = q.member)
    (haccepted : ∀ id v, e = .accepted id v → ∃ c, .claimed c ∈ log ∧ c.id = id) : LogKeeps (log ++ [e]) := by
  have hsplit : ∀ {x}, x ∈ log ++ [e] → x ∈ log ∨ e = x := fun hx =>
    (List.mem_append.1 hx).imp_right fun hx => (List.mem_singleton.1 hx).symm
  refine ⟨fun c c' hc hc' hid => ?_, fun c hc => ?_, fun q hq => ?_, fun id v hv => ?_, fun c hc r hr hid p hp => ?_,
    fun pre c post hl v => ?_, fun pre q post hl => ?_⟩
  · obtain hc | he := hsplit hc
    · obtain hc' | he := hsplit hc'
      · exact h.frozen c c' hc hc' hid
      · exact (hclaimed c' he).frozen c hc hid
    · obtain hc' | he' := hsplit hc'
      · have hsame := (hclaimed c he).frozen c' hc' hid.symm
        exact ⟨hsame.1.symm, hsame.2.symm⟩
      · rw [he] at he'
        cases he'
        exact ⟨rfl, rfl⟩
  · obtain hc | he := hsplit hc
    · obtain ⟨hname, r, hr, hid⟩ := h.claimed c hc
      exact ⟨hname, r, List.mem_append_left _ hr, hid⟩
    · obtain ⟨r, hr, hid⟩ := (hclaimed c he).stored
      exact ⟨(hclaimed c he).named, r, List.mem_append_left _ hr, hid⟩
  · have hq : ∃ c, .claimed c ∈ log ∧ c.payload = q.body ∧ c.member = q.member := by
      obtain hq | he := hsplit hq
      · exact h.posted q hq
      · exact hposted q he
    obtain ⟨c, hc, hsame⟩ := hq
    exact ⟨c, List.mem_append_left _ hc, hsame⟩
  · have hv : ∃ c, .claimed c ∈ log ∧ c.id = id := by
      obtain hv | he := hsplit hv
      · exact h.accepted id v hv
      · exact haccepted id v he
    obtain ⟨c, hc, hid⟩ := hv
    exact ⟨c, List.mem_append_left _ hc, hid⟩
  · have hdone : ∃ v, .accepted p v ∈ log := by
      obtain hc | he := hsplit hc
      · obtain hr | he := hsplit hr
        · exact h.parents c hc r hr hid p hp
        · exact absurd hid.symm (hstored r he c hc)
      · obtain hr | he' := hsplit hr
        · exact (hclaimed c he).parents r hr hid p hp
        · rw [he] at he'
          cases he'
    obtain ⟨v, hv⟩ := hdone
    exact ⟨v, List.mem_append_left _ hv⟩
  · obtain ⟨rfl, rfl, -⟩ | ⟨post', hl, -⟩ := snoc_eq_append_cons hl
    · exact (hclaimed c rfl).fresh v
    · exact h.final pre c post' hl v
  · intro r hr hid p hp
    obtain ⟨rfl, rfl, -⟩ | ⟨post', hl, -⟩ := snoc_eq_append_cons hl
    · obtain ⟨c, hc, hbody, -⟩ := hposted q rfl
      refine h.parents c hc r hr ?_ p hp
      rw [hid, ← hbody, (h.claimed c hc).1]
    · exact h.ordered pre q post' hl r hr hid p hp

end

end ClientBridge
