import ClientBridge.Sync.ReplicaRuns

/-!
# Which replica is open

A replica is open only while its queue holds it or a call opens it or is about to close it; a queue
that was given up has its replica closed.  The calls that have yet to let go of the replica of the
current queue say whose it will be.
-/

namespace ClientBridge

open Runs

variable {f : Prop} {s s' : ReplicaStore} {q : Nat} {u u' : SyncQueue} {g : Nat} {c : ReplicaCall} {a : ActiveReplica}

/-! ## What is open -/

/-- The replica belongs to a queue, or a call is opening it or closes it. -/
def Held (s : ReplicaStore) (db : Nat) : Prop :=
  (∃ q a, (s.queues q).active = some a ∧ a.db = db ∧ (q = s.current ∨ (s.replicas db).closing = true)) ∨
    ∃ q, (s.queues q).stage.opens = some db

/-- Every open replica is held, as the account's it was opened for. -/
structure HeldKept (s : ReplicaStore) : Prop where
  held : ∀ db, (s.replicas db).isOpen = true → Held s db
  closed : ∀ q a, (s.queues q).stage = .closed → (s.queues q).active = some a → (s.replicas a.db).isOpen = false
  active : ∀ q a, (s.queues q).active = some a → a.db < s.opened ∧ (s.replicas a.db).identity = a.identity
  opening : ∀ q db, (s.queues q).stage.opens = some db → db < s.opened ∧
    ∀ identity, (s.queues q).Runs (.activate identity) → (s.replicas db).identity = identity

/-- A move that does not fail keeps the replica of its queue, unless that is closed. -/
theorem QueueMove.active_kept (h : QueueMove f g u u') (hu : QueueKept u) (hf : ¬f) (ha : u.active = some a) :
    u.stage = .closed ∨ ∃ a', u'.active = some a' ∧ a'.db = a.db := by
  have hsame : SameActive u u' → ∃ a', u'.active = some a' ∧ a'.db = a.db := by
    rintro (he | ⟨b, b', hb, hb', hs⟩)
    · exact ⟨a, he.trans ha, rfl⟩
    · obtain rfl := Option.some.inj (ha.symm.trans hb)
      exact ⟨b', hb', hs.db⟩
  have hgone : u.stage = .closed ∨ u.active = none ∨ f → u.stage = .closed := by
    rintro (hs | hn | hf')
    · exact hs
    · rw [ha] at hn
      cases hn
    · exact absurd hf' hf
  cases h with
  | early hc he he' hl ha' hs hn => exact .inr (hsame ha')
  | settle hc hl hs ha' hm hd ho => exact .inr (hsame ha')
  | lost hc hl hs ha' hw hd hf' => exact absurd hf' hf
  | freed hc hl hs he ha' hr => exact .inl (hgone hr)
  | opened hc hcom he hl hs ha' hr => exact .inl (hgone hr)
  | discarding hc hcom he hl hs ha' hr => exact .inl (hgone hr)
  | opening hc ho ho' hl ha' => exact .inr (hsame (.inl ha'))
  | activated hc hcom ho hb ha' hn hs =>
    have hnone : u.active = none := (hu.opening (by rw [ho]; exact nofun)).2
    rw [ha] at hnone
    cases hnone
  | reached hc hcom hg he hl hs ha' ha'' => exact .inr (hsame (.inl (ha''.trans ha'.symm)))
  | subscribes hc hg he hl hs ha' => exact .inr (hsame (.inl ha'))
  | connected hc he hl hs ha' ha'' hdb hi hf' =>
    obtain rfl := Option.some.inj (ha.symm.trans ha')
    exact .inr ⟨_, ha'', hdb⟩

/-- What was being opened still is, belongs to the queue, or was to be closed. -/
theorem QueueMove.opens_kept (h : QueueMove f g u u') (hf : ¬f) {db : Nat} (ho : u.stage.opens = some db) :
    u.stage = .dropping db ∨ u'.stage.opens = some db ∨ ∃ a, u'.active = some a ∧ a.db = db ∧ u.abandoned = false := by
  have hearly : u.stage.early = true → u.stage = .dropping db ∨ u'.stage.opens = some db ∨
      ∃ a, u'.active = some a ∧ a.db = db ∧ u.abandoned = false := fun he => by
    rw [ReplicaStage.opens_early he] at ho
    cases ho
  cases h with
  | early hc he he' hl ha hs hn => exact hearly he
  | settle hc hl hs ha hm hd hop =>
    obtain hop | ⟨db', hop⟩ := hop
    · rw [ho] at hop
      cases hop
    · rw [hop] at ho
      obtain rfl := Option.some.inj ho
      exact .inl hop
  | lost hc hl hs ha hw hd hf' => exact absurd hf' hf
  | freed hc hl hs he ha hr => exact hearly he
  | opened hc hcom he hl hs ha hr => exact hearly he
  | discarding hc hcom he hl hs ha hr =>
    obtain he | ⟨names, he⟩ := he
    · exact hearly he
    · rw [he] at ho
      cases ho
  | opening hc ho' ho'' hl ha =>
    obtain rfl := Option.some.inj (ho.symm.trans ho')
    exact .inr (.inl ho'')
  | activated hc hcom ho' hb ha hn hs =>
    rw [ho'] at ho
    exact .inr (.inr ⟨_, ha, Option.some.inj ho, hb⟩)
  | reached hc hcom hg he hl hs ha ha' =>
    rw [he] at ho
    cases ho
  | subscribes hc hg he hl hs ha =>
    rw [he] at ho
    cases ho
  | connected hc he hl hs ha ha' hdb hi hf' =>
    rw [he] at ho
    cases ho

/-- Where the replica a queue holds after a move comes from. -/
theorem QueueMove.active_from (h : QueueMove f g u u') {a' : ActiveReplica} (ha : u'.active = some a') :
    (∃ a, u.active = some a ∧ a'.db = a.db ∧ a'.identity = a.identity) ∨
      (u.stage.opens = some a'.db ∧ u.Runs (.activate a'.identity)) := by
  have hsame : SameActive u u' → ∃ a, u.active = some a ∧ a'.db = a.db ∧ a'.identity = a.identity := by
    rintro (he | ⟨b, b', hb, hb', hs⟩)
    · exact ⟨a', he.symm.trans ha, rfl, rfl⟩
    · obtain rfl := Option.some.inj (ha.symm.trans hb')
      exact ⟨b, hb, hs.db, hs.identity⟩
  have hnone : u'.active = none → ∃ a, u.active = some a ∧ a'.db = a.db ∧ a'.identity = a.identity := fun hn => by
    rw [ha] at hn
    cases hn
  cases h with
  | early hc he he' hl ha' hs hn => exact .inl (hsame ha')
  | settle hc hl hs ha' hm hd ho => exact .inl (hsame ha')
  | lost hc hl hs ha' hw hd hf => exact .inl (hsame ha')
  | freed hc hl hs he ha' hr => exact .inl (hnone ha')
  | opened hc hcom he hl hs ha' hr => exact .inl (hnone ha')
  | discarding hc hcom he hl hs ha' hr => exact .inl (hnone ha')
  | opening hc ho ho' hl ha' => exact .inl (hsame (.inl ha'))
  | activated hc hcom ho hb ha' hn hs =>
    obtain rfl := Option.some.inj (ha.symm.trans ha')
    exact .inr ⟨by rw [ho]; rfl, _, hc, hcom⟩
  | reached hc hcom hg he hl hs ha' ha'' => exact .inl (hsame (.inl (ha''.trans ha'.symm)))
  | subscribes hc hg he hl hs ha' => exact .inl (hsame (.inl ha'))
  | connected hc he hl hs ha' ha'' hdb hi hf =>
    obtain rfl := Option.some.inj (ha.symm.trans ha'')
    exact .inl ⟨_, ha', hdb, hi⟩

/-- A call runs on while it opens a replica. -/
theorem QueueMove.opens_line (h : QueueMove f g u u') (ho : u'.stage.opens ≠ none) : u'.line = u.line := by
  cases h with
  | early hc he he' hl ha hs hn => exact hl
  | settle hc hl hs ha hm hd ho' => exact absurd (by rw [hs]; rfl) ho
  | lost hc hl hs ha hw hd hf => exact absurd (by rw [hs]; rfl) ho
  | freed hc hl hs he ha hr => exact absurd (by rw [hs]; rfl) ho
  | opened hc hcom he hl hs ha hr => exact hl
  | discarding hc hcom he hl hs ha hr => exact hl
  | opening hc ho' ho'' hl ha => exact hl
  | activated hc hcom ho' hb ha hn hs =>
    obtain ⟨hl, -⟩ | ⟨-, hs⟩ := hs
    · exact hl
    · exact absurd (by rw [hs]; rfl) ho
  | reached hc hcom hg he hl hs ha ha' => exact hl
  | subscribes hc hg he hl hs ha => exact hl
  | connected hc he hl hs ha ha' hdb hi hf => exact absurd (by rw [hs]; rfl) ho

/-- A replica stays held while nothing but closes and openings touch the replicas. -/
theorem Held.runs {db : Nat} (h : Held s db) (hg : GivenKept s) (hm : QueueMove f s.generation (s.queues q) u') (hf : ¬f)
    (hq : s'.queues = Function.update s.queues q u') (hcur : s'.current = s.current)
    (hb : u'.abandoned = (s.queues q).abandoned) (hclose : (s.replicas db).closing = true → (s'.replicas db).closing = true)
    (hcl : ∀ a, (s.queues q).stage = .closed → (s.queues q).active = some a → a.db ≠ db)
    (hdrop : (s.queues q).stage ≠ .dropping db) : Held s' db := by
  have hown : s'.queues q = u' := by rw [hq, Function.update_self]
  have hother : ∀ q', q' ≠ q → s'.queues q' = s.queues q' := fun q' hne => by rw [hq, Function.update_of_ne hne]
  obtain ⟨q', a, ha, rfl, hor⟩ | ⟨q', ho⟩ := h
  · have hor' : q' = s'.current ∨ (s'.replicas a.db).closing = true := hor.imp (·.trans hcur.symm) hclose
    by_cases hqq : q' = q
    · subst hqq
      obtain hst | ⟨a', ha', hdb⟩ := hm.active_kept (hg.queues q') hf ha
      · exact absurd rfl (hcl a hst ha)
      · exact .inl ⟨q', a', by rw [hown]; exact ha', hdb, hor'⟩
    · exact .inl ⟨q', a, by rw [hother q' hqq]; exact ha, rfl, hor'⟩
  · by_cases hqq : q' = q
    · subst hqq
      obtain hst | ho' | ⟨a, ha, rfl, hab⟩ := hm.opens_kept hf ho
      · exact absurd hst hdrop
      · exact .inr ⟨q', by rw [hown]; exact ho'⟩
      · refine .inl ⟨q', a, by rw [hown]; exact ha, rfl, .inl ?_⟩
        have hle := hg.le_current hm
        have hnot : ¬q' < s.current := fun hlt => by
          rw [(hg.abandoned q').2 hlt] at hab
          cases hab
        rw [hcur]
        omega
    · exact .inr ⟨q', by rw [hother q' hqq]; exact ho⟩

/-- What a segment leaves of the replicas opened so far. -/
theorem RunEffect.replicas (he : RunEffect f q s u' s') {db : Nat} (hlt : db < s.opened) :
    db < s'.opened ∧ (s'.replicas db).identity = (s.replicas db).identity ∧
      ((s'.replicas db).isOpen = true → (s.replicas db).isOpen = true) := by
  have hsame : s'.replicas = s.replicas → s'.opened = s.opened → db < s'.opened ∧
      (s'.replicas db).identity = (s.replicas db).identity ∧
        ((s'.replicas db).isOpen = true → (s.replicas db).isOpen = true) := fun hr ho => by
    rw [hr, ho]
    exact ⟨hlt, rfl, id⟩
  cases he with
  | quiet hf hr ho hs hv hn hd hop => exact hsame hr ho
  | opened hc hst hd hf hr ho hs hv =>
    rw [hr, ho, Function.update_of_ne (by omega)]
    exact ⟨by omega, rfl, id⟩
  | @shut db' hst hf hr ho hs hv =>
    rw [hr, ho]
    by_cases hdb : db = db'
    · subst hdb
      rw [Function.update_self]
      exact ⟨hlt, rfl, nofun⟩
    · rw [Function.update_of_ne hdb]
      exact ⟨hlt, rfl, id⟩
  | wiped hc hl hst hr ho hs hv hn => exact hsame hr ho
  | owned hc hl hst hop hd hown hf hr ho hs hv => exact hsame hr ho
  | connected hc hst ha hn hf hr ho hs hv => exact hsame hr ho

/-- What is open after a segment was held before, or was just opened. -/
theorem RunEffect.held (he : RunEffect f q s u' s') (h : HeldKept s) (hg : GivenKept s)
    (hm : QueueMove f s.generation (s.queues q) u') (hf : ¬f) (hq : s'.queues = Function.update s.queues q u')
    (hcur : s'.current = s.current) (hb : u'.abandoned = (s.queues q).abandoned) {db : Nat}
    (hopen : (s'.replicas db).isOpen = true) : Held s' db := by
  have hcl : (s.replicas db).isOpen = true → ∀ a, (s.queues q).stage = .closed → (s.queues q).active = some a → a.db ≠ db := by
    rintro hopen a hst ha rfl
    rw [h.closed q a hst ha] at hopen
    cases hopen
  have hsame : s'.replicas = s.replicas → (s.queues q).stage ≠ .dropping db → Held s' db := fun hr hd => by
    rw [hr] at hopen
    exact (h.held db hopen).runs hg hm hf hq hcur hb (by rw [hr]; exact id) (hcl hopen) hd
  cases he with
  | quiet hf' hr ho hs hv hn hd hop => exact hsame hr (hd.resolve_left hf db)
  | opened hc hst hd hf' hr ho hs hv =>
    by_cases hdb : db = s.opened
    · subst hdb
      exact .inr ⟨q, by rw [hq, Function.update_self, hst]; rfl⟩
    · rw [hr, Function.update_of_ne hdb] at hopen
      exact (h.held db hopen).runs hg hm hf hq hcur hb (by rw [hr, Function.update_of_ne hdb]; exact id) (hcl hopen) (hd db)
  | @shut db' hst hf' hr ho hs hv =>
    have hdb : db ≠ db' := by
      rintro rfl
      rw [hr, Function.update_self] at hopen
      cases hopen
    rw [hr, Function.update_of_ne hdb] at hopen
    refine (h.held db hopen).runs hg hm hf hq hcur hb (by rw [hr, Function.update_of_ne hdb]; exact id) (hcl hopen) fun hd => ?_
    obtain ⟨-, -, a, ha, -⟩ | ⟨hst, -⟩ := hst
    · have hnone : (s.queues q).active = none := ((hg.queues q).opening (by rw [hd]; exact nofun)).2
      rw [ha] at hnone
      cases hnone
    · exact hdb (ReplicaStage.dropping.inj (hd.symm.trans hst))
  | wiped hc hl hst hr ho hs hv hn =>
    refine hsame hr fun hd => ?_
    obtain ⟨⟨identity, c, hc', hcom⟩, -⟩ := (hg.queues q).opening (by rw [hd]; exact nofun)
    have hcom' := hc.eq hc'
    rw [hcom] at hcom'
    cases hcom'
  | owned hc hl hst hop hd hown hf' hr ho hs hv => exact hsame hr (hd db)
  | connected hc hst ha hn hf' hr ho hs hv => exact hsame hr (by rw [hst]; exact nofun)

theorem HeldKept.runs (h : HeldKept s) (hg : GivenKept s) (hr : RunsOn f q s s') (hf : ¬f) : HeldKept s' := by
  obtain ⟨⟨u', hq, hb, hm, he⟩, -, hcur, -, -⟩ := hr
  have hkept : QueueKept u' := hm.kept (hg.queues q)
  refine ⟨fun db hopen => he.held h hg hm hf hq hcur hb hopen, fun q' a hst ha => ?_, fun q' a' ha => ?_, fun q' db ho => ?_⟩
  · obtain ⟨rfl, hq'⟩ | ⟨-, hq'⟩ := queue_cases hq q'
    · rw [hq'] at hst ha
      cases he with
      | quiet hf' hr ho hs hv hn hd hop => exact absurd hst hn.1
      | opened hc hst' hd hf' hr ho hs hv =>
        rw [hst] at hst'
        cases hst'
      | @shut db hst' hf' hr ho hs hv =>
        obtain ⟨-, hact, b, hb', rfl⟩ | ⟨-, hst'⟩ := hst'
        · obtain rfl := Option.some.inj (hb'.symm.trans (hact.symm.trans ha))
          rw [hr, Function.update_self]
        · rw [hst] at hst'
          cases hst'
      | wiped hc hl hst' hr ho hs hv hn =>
        obtain hst' | hst' := hst'
        · rw [hst] at hst'
          cases hst'
        · rw [ha] at hst'
          cases hst'
      | owned hc hl hst' hop hd hown hf' hr ho hs hv =>
        rw [hst] at hst'
        cases hst'
      | connected hc hst' ha' hn hf' hr ho hs hv =>
        rw [hst] at hn
        cases hn
    · rw [hq'] at hst ha
      refine Bool.eq_false_of_not_eq_true fun hopen => ?_
      have hopen' := (he.replicas (h.active q' a ha).1).2.2 hopen
      rw [h.closed q' a hst ha] at hopen'
      cases hopen'
  · obtain ⟨rfl, hq'⟩ | ⟨-, hq'⟩ := queue_cases hq q'
    · rw [hq'] at ha
      obtain ⟨a, hact, hdb, hid⟩ | ⟨ho, hrun⟩ := hm.active_from ha
      · obtain ⟨hlt, hi⟩ := h.active q' a hact
        obtain ⟨hlt', hi', -⟩ := he.replicas hlt
        rw [hdb, hid]
        exact ⟨hlt', hi'.trans hi⟩
      · obtain ⟨hlt, hi⟩ := h.opening q' a'.db ho
        obtain ⟨hlt', hi', -⟩ := he.replicas hlt
        exact ⟨hlt', hi'.trans (hi _ hrun)⟩
    · rw [hq'] at ha
      obtain ⟨hlt, hi⟩ := h.active q' a' ha
      obtain ⟨hlt', hi', -⟩ := he.replicas hlt
      exact ⟨hlt', hi'.trans hi⟩
  · obtain ⟨rfl, hq'⟩ | ⟨-, hq'⟩ := queue_cases hq q'
    · rw [hq'] at ho ⊢
      have hline : u'.line = (s.queues q').line := hm.opens_line (by rw [ho]; exact nofun)
      have hruns : ∀ {command}, u'.Runs command → (s.queues q').Runs command := by
        rintro command ⟨c, hc, hcom⟩
        exact ⟨c, hline ▸ hc, hcom⟩
      have hfrom : (s.queues q').stage.opens = some db → db < s'.opened ∧
          ∀ identity, u'.Runs (.activate identity) → (s'.replicas db).identity = identity := fun ho' => by
        obtain ⟨hlt, hi⟩ := h.opening q' db ho'
        obtain ⟨hlt', hi', -⟩ := he.replicas hlt
        exact ⟨hlt', fun identity hr => hi'.trans (hi identity (hruns hr))⟩
      cases he with
      | quiet hf' hr ho' hs hv hn hd hop => exact hfrom (hop db ho)
      | opened hc hst hd hf' hr ho' hs hv =>
        rw [hst] at ho
        obtain rfl := Option.some.inj ho
        refine ⟨by omega, fun identity hr' => ?_⟩
        obtain ⟨c, hc', hcom⟩ := hruns hr'
        rw [hr, Function.update_self]
        exact ReplicaCommand.activate.inj ((hc.eq hc').symm.trans hcom)
      | shut hst hf' hr ho' hs hv =>
        obtain ⟨hst, -⟩ | ⟨-, hst⟩ := hst
        · rw [hst] at ho
          cases ho
        · rw [hst] at ho
          cases ho
      | wiped hc hl hst hr ho' hs hv hn =>
        obtain ⟨⟨identity, hr'⟩, -⟩ := hkept.opening (by rw [ho]; exact nofun)
        obtain ⟨c, hc', hcom⟩ := hruns hr'
        have hcom' := hc.eq hc'
        rw [hcom] at hcom'
        cases hcom'
      | owned hc hl hst hop hd hown hf' hr ho' hs hv =>
        rw [hst] at ho
        obtain rfl := Option.some.inj ho
        exact hfrom hop
      | connected hc hst ha hn hf' hr ho' hs hv =>
        rw [hn] at ho
        cases ho
    · rw [hq'] at ho ⊢
      obtain ⟨hlt, hi⟩ := h.opening q' db ho
      obtain ⟨hlt', hi', -⟩ := he.replicas hlt
      exact ⟨hlt', fun identity hr => hi'.trans (hi identity hr)⟩

/-- The queues stay as they are, and replicas are at most closed. -/
theorem HeldKept.of_queues (h : HeldKept s) (hq : s'.queues = s.queues) (hc : s'.current = s.current) (ho : s'.opened = s.opened)
    (hr : ∀ db, (s'.replicas db).identity = (s.replicas db).identity ∧
      ((s'.replicas db).isOpen = true → (s.replicas db).isOpen = true ∧
        ((s.replicas db).closing = true → (s'.replicas db).closing = true))) : HeldKept s' := by
  refine ⟨fun db hopen => ?_, fun q a hst ha => ?_, fun q a ha => ?_, fun q db hop => ?_⟩
  · obtain ⟨hopen', hcl⟩ := (hr db).2 hopen
    obtain ⟨q, a, ha, hdb, hor⟩ | ⟨q, hst⟩ := h.held db hopen'
    · exact .inl ⟨q, a, by rw [hq]; exact ha, hdb, hor.imp (·.trans hc.symm) hcl⟩
    · exact .inr ⟨q, by rw [hq]; exact hst⟩
  · rw [hq] at hst ha
    refine Bool.eq_false_of_not_eq_true fun hopen => ?_
    have hopen' := ((hr a.db).2 hopen).1
    rw [h.closed q a hst ha] at hopen'
    cases hopen'
  · rw [hq] at ha
    rw [ho, (hr a.db).1]
    exact h.active q a ha
  · rw [hq] at hop ⊢
    rw [ho, (hr db).1]
    exact h.opening q db hop

/-- A call joins a queue; which calls it has runs first stays, if one did. -/
theorem HeldKept.serialize (h : HeldKept s) (hg : GivenKept s) (command : ReplicaCommand) : HeldKept (s.serialize command) := by
  have hfields : ∀ q, ((s.serialize command).queues q).active = (s.queues q).active ∧
      ((s.serialize command).queues q).stage = (s.queues q).stage ∧
      ((s.queues q).line ≠ [] → ((s.serialize command).queues q).line.head? = (s.queues q).line.head?) := by
    intro q
    obtain ⟨rfl, hq⟩ | ⟨-, hq⟩ := @queue_cases s (s.serialize command) s.current _ rfl q
    · rw [hq]
      exact ⟨rfl, rfl, fun hl => List.head?_append_of_ne_nil _ hl⟩
    · rw [hq]
      exact ⟨rfl, rfl, fun _ => rfl⟩
  refine ⟨fun db hopen => ?_, fun q a hst ha => ?_, fun q a ha => ?_, fun q db hop => ?_⟩
  · obtain ⟨q, a, ha, hdb, hor⟩ | ⟨q, hst⟩ := h.held db hopen
    · exact .inl ⟨q, a, (hfields q).1.trans ha, hdb, hor⟩
    · exact .inr ⟨q, by rw [(hfields q).2.1]; exact hst⟩
  · exact h.closed q a ((hfields q).2.1.symm.trans hst) ((hfields q).1.symm.trans ha)
  · exact h.active q a ((hfields q).1.symm.trans ha)
  · rw [(hfields q).2.1] at hop
    obtain ⟨hlt, hi⟩ := h.opening q db hop
    refine ⟨hlt, fun identity hr => hi identity ?_⟩
    have hl : (s.queues q).line ≠ [] := fun hl => by
      rw [(hg.queues q).idle hl] at hop
      cases hop
    obtain ⟨c, hc, hcom⟩ := hr
    exact ⟨c, ((hfields q).2.2 hl).symm.trans hc, hcom⟩

theorem ReplicaStore.abandon_replicas (s : ReplicaStore) (db : Nat) :
    (s.abandon.replicas db).identity = (s.replicas db).identity ∧ (s.abandon.replicas db).isOpen = (s.replicas db).isOpen ∧
      ((s.replicas db).isOpen = true → (s.replicas db).closing = true → (s.abandon.replicas db).closing = true) ∧
      ∀ a, (s.queues s.current).active = some a → a.db = db → (s.abandon.replicas db).closing = (s.replicas db).isOpen := by
  unfold ReplicaStore.abandon
  dsimp only
  split
  · next hn =>
    refine ⟨rfl, rfl, fun _ h => h, fun a ha => ?_⟩
    rw [hn] at ha
    cases ha
  · next a ha =>
    show (Function.update s.replicas a.db _ db).identity = _ ∧ (Function.update s.replicas a.db _ db).isOpen = _ ∧
      (_ → _ → (Function.update s.replicas a.db _ db).closing = true) ∧
      ∀ a', _ → _ → (Function.update s.replicas a.db _ db).closing = _
    by_cases hdb : db = a.db
    · subst hdb
      rw [Function.update_self]
      exact ⟨rfl, rfl, fun hopen _ => hopen, fun _ _ _ => rfl⟩
    · rw [Function.update_of_ne hdb]
      refine ⟨rfl, rfl, fun _ h => h, fun a' ha' hdb' => ?_⟩
      obtain rfl := Option.some.inj (ha.symm.trans ha')
      exact absurd hdb'.symm hdb

theorem HeldKept.abandon (h : HeldKept s) (hg : GivenKept s) : HeldKept s.abandon := by
  obtain ⟨-, hcur, -, -, -, -, -, hop⟩ := s.abandon_fields
  have hcase : ∀ q, (s.abandon.queues q).stage = (s.queues q).stage ∧ (s.abandon.queues q).line = (s.queues q).line ∧
      ((s.abandon.queues q).active = (s.queues q).active ∨
        (q = s.current ∧ (s.abandon.queues q).active = (s.queues q).givenUp.active)) := by
    intro q
    by_cases hq : q = s.current
    · subst hq
      rw [s.abandon_given]
      exact ⟨rfl, rfl, .inr ⟨rfl, rfl⟩⟩
    · by_cases hq' : q = s.current + 1
      · subst hq'
        rw [hg.fresh (s.current + 1) (by omega), ← hcur, s.abandon_current]
        exact ⟨rfl, rfl, .inl rfl⟩
      · rw [s.abandon_other hq hq']
        exact ⟨rfl, rfl, .inl rfl⟩
  have hback : ∀ q a, (s.abandon.queues q).active = some a →
      ∃ b, (s.queues q).active = some b ∧ a.db = b.db ∧ a.identity = b.identity := by
    intro q a ha
    obtain he | ⟨-, he⟩ := (hcase q).2.2
    · exact ⟨a, he.symm.trans ha, rfl, rfl⟩
    · obtain ⟨b, hb, rfl⟩ := Option.map_eq_some_iff.1 (show (s.queues q).active.map _ = some a from he.symm.trans ha)
      exact ⟨b, hb, rfl, rfl⟩
  refine ⟨fun db hopen => ?_, fun q a hst ha => ?_, fun q a ha => ?_, fun q db hopens => ?_⟩
  · rw [(s.abandon_replicas db).2.1] at hopen
    obtain ⟨q, a, ha, hdb, hor⟩ | ⟨q, hst⟩ := h.held db hopen
    · have hclosing : (s.abandon.replicas db).closing = true := by
        obtain rfl | hcl := hor
        · exact ((s.abandon_replicas db).2.2.2 a ha hdb).trans hopen
        · exact (s.abandon_replicas db).2.2.1 hopen hcl
      obtain he | ⟨-, he⟩ := (hcase q).2.2
      · exact .inl ⟨q, a, he.trans ha, hdb, .inr hclosing⟩
      · refine .inl ⟨q, { a with joined := false }, he.trans ?_, hdb, .inr hclosing⟩
        show (s.queues q).active.map _ = _
        rw [ha]
        rfl
    · exact .inr ⟨q, by rw [(hcase q).1]; exact hst⟩
  · obtain ⟨b, hb, hdb, -⟩ := hback q a ha
    rw [hdb, (s.abandon_replicas b.db).2.1]
    exact h.closed q b ((hcase q).1.symm.trans hst) hb
  · obtain ⟨b, hb, hdb, hid⟩ := hback q a ha
    rw [hop, hdb, hid, (s.abandon_replicas b.db).1]
    exact h.active q b hb
  · rw [(hcase q).1] at hopens
    rw [hop, (s.abandon_replicas db).1]
    obtain ⟨hlt, hi⟩ := h.opening q db hopens
    refine ⟨hlt, fun identity hr => hi identity ?_⟩
    obtain ⟨c, hc, hcom⟩ := hr
    exact ⟨c, (hcase q).2.1 ▸ hc, hcom⟩

/-! ## Whose it is -/

/-- An activate that was superseded is followed by a call that replaces or closes the replica. -/
def LineCovered (g : Nat) : List ReplicaCall → Prop
  | [] => True
  | c :: rest =>
    ((∃ identity, c.command = .activate identity) → c.generation = g ∨ ∃ m ∈ rest, m.Moves g) ∧ LineCovered g rest

/-- Unless a call is still to replace or close it, the replica of the queue is that of the last
activate. -/
structure LastKept (g : Nat) (last : Option String) (u : SyncQueue) : Prop where
  covered : LineCovered g u.pending
  active : (∃ m ∈ u.pending, m.Moves g) ∨ ∀ a, u.active = some a → last = some a.identity
  opening : u.stage.opens ≠ none → ∀ identity, u.Runs (.activate identity) →
    (∃ m ∈ u.line.tail, m.Moves g) ∨ last = some identity
  calls : ∀ c ∈ u.line, ∀ identity, c.command = .activate identity → c.generation = g → last = some identity

variable {l : Option String}

theorem SyncQueue.pending_early (h : u.stage.early = true) : u.pending = u.line := by
  unfold SyncQueue.pending
  rw [h]
  rfl

theorem SyncQueue.pending_late (h : u.stage.early = false) : u.pending = u.line.tail := by
  unfold SyncQueue.pending
  rw [h]
  rfl

/-- The calls behind the first, once it is past the replica it was called with. -/
theorem LastKept.covered_tail (h : LastKept g l u) (hc : u.line.head? = some c) : LineCovered g u.line.tail := by
  obtain ⟨rest, hl⟩ := List.head?_eq_some_iff.1 hc
  have hcov := h.covered
  cases he : u.stage.early with
  | true =>
    rw [SyncQueue.pending_early he, hl] at hcov
    rw [hl]
    exact hcov.2
  | false =>
    rw [SyncQueue.pending_late he] at hcov
    exact hcov

/-- A first call that moves nothing leaves the movers behind it. -/
theorem mover_tail (hc : u.line.head? = some c) (hn : ¬c.Moves g) (h : ∃ m ∈ u.line, m.Moves g) :
    ∃ m ∈ u.line.tail, m.Moves g := by
  obtain ⟨rest, hl⟩ := List.head?_eq_some_iff.1 hc
  obtain ⟨m, hm, hmoves⟩ := h
  rw [hl] at hm
  obtain rfl | hm := List.mem_cons.1 hm
  · exact absurd hmoves hn
  · exact ⟨m, by rw [hl]; exact hm, hmoves⟩

/-- At its turn, a queue whose first call is over. -/
theorem LastKept.of_settled (h : LastKept g l u) (hc : u.line.head? = some c) (hl : u'.line = u.line.tail)
    (hs : u'.stage = .waiting)
    (ha : (∃ m ∈ u.line.tail, m.Moves g) ∨ ∀ a, u'.active = some a → l = some a.identity) : LastKept g l u' where
  covered := by
    rw [SyncQueue.pending_early (by rw [hs]; rfl), hl]
    exact h.covered_tail hc
  active := by
    rw [SyncQueue.pending_early (by rw [hs]; rfl), hl]
    exact ha
  opening ho := absurd (by rw [hs]; rfl) ho
  calls c' hc' := h.calls c' (List.mem_of_mem_tail (hl ▸ hc'))

/-- Past the replica it was called with, with its call still first. -/
theorem LastKept.of_late (h : LastKept g l u) (hc : u.line.head? = some c) (hl : u'.line = u.line)
    (hs : u'.stage.early = false)
    (ha : (∃ m ∈ u.line.tail, m.Moves g) ∨ ∀ a, u'.active = some a → l = some a.identity)
    (ho : u'.stage.opens ≠ none → ∀ identity, u.Runs (.activate identity) →
      (∃ m ∈ u.line.tail, m.Moves g) ∨ l = some identity) : LastKept g l u' where
  covered := by
    rw [SyncQueue.pending_late hs, hl]
    exact h.covered_tail hc
  active := by
    rw [SyncQueue.pending_late hs, hl]
    exact ha
  opening hop identity hr := by
    rw [hl]
    obtain ⟨c', hc', hcom⟩ := hr
    exact ho hop identity ⟨c', hl ▸ hc', hcom⟩
  calls c' hc' := h.calls c' (hl ▸ hc')

theorem SameActive.lastOf (ha : SameActive u u') (h : ∀ a, u.active = some a → l = some a.identity) :
    ∀ a, u'.active = some a → l = some a.identity := by
  intro a hact
  obtain he | ⟨b, b', hb, hb', hs⟩ := ha
  · exact h a (he ▸ hact)
  · obtain rfl := Option.some.inj (hact.symm.trans hb')
    rw [hs.identity]
    exact h b hb

theorem QueueMove.lastKept (h : QueueMove f g u u') (hf : ¬f) (hu : QueueKept u) (hk : LastKept g l u) : LastKept g l u' := by
  have hnone : ∀ {v : SyncQueue}, v.active = none → ∀ a, v.active = some a → l = some a.identity := fun hn a ha => by
    rw [hn] at ha
    cases ha
  have hlate : u.stage.early = false →
      (∃ m ∈ u.line.tail, m.Moves g) ∨ ∀ a, u.active = some a → l = some a.identity := fun he => by
    rw [← SyncQueue.pending_late he]
    exact hk.active
  -- an activate that goes on past its replica is the last one, or is replaced by one behind it
  have hgoes : u.stage.early = true → ∀ identity, u.Runs (.activate identity) →
      (∃ m ∈ u.line.tail, m.Moves g) ∨ l = some identity := by
    rintro he identity ⟨c, hc, hcom⟩
    obtain ⟨rest, hl⟩ := List.head?_eq_some_iff.1 hc
    have hcov := hk.covered
    rw [SyncQueue.pending_early he, hl] at hcov
    obtain hgen | hm := hcov.1 ⟨identity, hcom⟩
    · exact .inr (hk.calls c (List.mem_of_mem_head? hc) identity hcom hgen)
    · rw [hl]
      exact .inl hm
  cases h with
  | early hc he he' hl ha hs hn =>
    refine ⟨?_, ?_, fun ho => absurd (ReplicaStage.opens_early he') ho, fun c' hc' => hk.calls c' (hl ▸ hc')⟩
    · rw [SyncQueue.pending_early he', hl, ← SyncQueue.pending_early he]
      exact hk.covered
    · rw [SyncQueue.pending_early he', hl, ← SyncQueue.pending_early he]
      exact hk.active.imp id ha.lastOf
  | @settle c _ hc hl hs ha hm hd ho =>
    refine hk.of_settled hc hl hs ?_
    cases he : u.stage.early with
    | true =>
      obtain hn | hn := hm he
      · obtain hmove | hact := hk.active
        · rw [SyncQueue.pending_early he] at hmove
          exact .inl (mover_tail hc hn hmove)
        · exact .inr (ha.lastOf hact)
      · exact .inr (ha.lastOf (hnone hn))
    | false => exact (hlate he).imp id ha.lastOf
  | lost hc hl hs ha hw hd hf' => exact absurd hf' hf
  | freed hc hl hs he ha hr => exact hk.of_settled hc hl hs (.inr (hnone ha))
  | opened hc hcom he hl hs ha hr =>
    exact hk.of_late hc hl (by rw [hs]; rfl) (.inr (hnone ha)) fun _ => hgoes he
  | discarding hc hcom he hl hs ha hr =>
    exact hk.of_late hc hl (by rw [hs]; rfl) (.inr (hnone ha)) fun ho => absurd (by rw [hs]; rfl) ho
  | opening hc ho ho' hl ha =>
    have hlate' : u'.stage.early = false := by
      cases he : u'.stage.early with
      | true =>
        rw [ReplicaStage.opens_early he] at ho'
        cases ho'
      | false => rfl
    refine hk.of_late hc hl hlate' (.inr (hnone (ha.trans ?_))) fun _ => hk.opening (by rw [ho]; exact nofun)
    exact (hu.opening (by rw [ho]; exact nofun)).2
  | activated hc hcom ho hb ha hn hs =>
    have hact : (∃ m ∈ u.line.tail, m.Moves g) ∨ ∀ a, u'.active = some a → l = some a.identity := by
      obtain hm | hl := hk.opening (by rw [ho]; exact nofun) _ ⟨_, hc, hcom⟩
      · exact .inl hm
      · refine .inr fun b hb' => ?_
        obtain rfl := Option.some.inj (ha.symm.trans hb')
        exact hl
    obtain ⟨hl, hs⟩ | ⟨hl, hs⟩ := hs
    · exact hk.of_late hc hl (by rw [hs]; rfl) hact fun hop => absurd (by rw [hs]; rfl) hop
    · exact hk.of_settled hc hl hs hact
  | reached hc hcom hg he hl hs ha ha' =>
    refine hk.of_late hc hl (by rw [hs]; rfl) (.inr fun b hb => ?_) fun hop => absurd (by rw [hs]; rfl) hop
    obtain rfl := Option.some.inj (ha'.symm.trans hb)
    exact hk.calls _ (List.mem_of_mem_head? hc) _ hcom hg
  | subscribes hc hg he hl hs ha =>
    exact hk.of_late hc hl (by rw [hs]; rfl) ((hlate (by rw [he]; rfl)).imp id (SameActive.lastOf (.inl ha)))
      fun hop => absurd (by rw [hs]; rfl) hop
  | connected hc he hl hs ha ha' hdb hi hf' =>
    refine hk.of_settled hc hl hs ((hlate (by rw [he]; rfl)).imp id fun hact b hb => ?_)
    obtain rfl := Option.some.inj (ha'.symm.trans hb)
    rw [hi]
    exact hact _ ha

/-! ## New calls -/

/-- A call behind the others covers them if it moves; else nobody may be superseded by it. -/
theorem LineCovered.snoc {line : List ReplicaCall} (h : LineCovered g line) (c : ReplicaCall) (hc : c.generation = g + 1)
    (hm : c.Moves (g + 1) ∨ ∀ b ∈ line, ∀ identity, b.command = .activate identity → b.generation ≠ g) :
    LineCovered (g + 1) (line ++ [c]) := by
  induction line with
  | nil => exact ⟨fun _ => .inl hc, trivial⟩
  | cons b line ih =>
    obtain ⟨hb, hrest⟩ := h
    have hrest' := ih hrest (hm.imp id fun hm b' hb' => hm b' (List.mem_cons_of_mem _ hb'))
    refine ⟨fun ⟨identity, hcom⟩ => .inr ?_, hrest'⟩
    obtain hm | hm := hm
    · exact ⟨c, List.mem_append_right _ List.mem_cons_self, hm⟩
    · obtain hgen | ⟨m, hmem, hmoves⟩ := hb ⟨identity, hcom⟩
      · exact absurd hgen (hm b List.mem_cons_self identity hcom)
      · refine ⟨m, List.mem_append_left _ hmem, ?_⟩
        unfold ReplicaCall.Moves at hmoves ⊢
        cases hcom' : m.command with
        | activate identity' =>
          rw [hcom'] at hmoves
          exact absurd hmoves (hm m (List.mem_cons_of_mem _ hmem) identity' hcom')
        | pause =>
          rw [hcom'] at hmoves
          exact hmoves.elim
        | close => trivial
        | discard names => trivial

theorem SyncQueue.pending_enqueue (hu : QueueKept u) (c : ReplicaCall) :
    SyncQueue.pending { u with line := u.line ++ [c] } = u.pending ++ [c] := by
  unfold SyncQueue.pending
  dsimp only
  split
  · rfl
  · next he =>
    refine List.tail_append_of_ne_nil fun hl => he ?_
    rw [hu.idle hl]
    rfl

/-- A new call that replaces or closes the replica. -/
theorem LastKept.mover (h : LastKept g l u) (hu : QueueKept u) {l' : Option String} (hg : c.generation = g + 1)
    (hm : c.Moves (g + 1)) (hl : ∀ b ∈ u.line, b.generation ≤ g)
    (hlast : ∀ identity, c.command = .activate identity → l' = some identity) :
    LastKept (g + 1) l' { u with line := u.line ++ [c] } := by
  refine ⟨?_, .inl ⟨c, ?_, hm⟩, fun ho identity hr => .inl ?_, fun b hb identity hcom hgen => ?_⟩
  · rw [SyncQueue.pending_enqueue hu]
    exact h.covered.snoc c hg (.inl hm)
  · rw [SyncQueue.pending_enqueue hu]
    exact List.mem_append_right _ List.mem_cons_self
  · have hne : u.line ≠ [] := fun hn => by
      have hst : u.stage.opens ≠ none := ho
      rw [hu.idle hn] at hst
      exact hst rfl
    refine ⟨c, ?_, hm⟩
    show c ∈ (u.line ++ [c]).tail
    rw [List.tail_append_of_ne_nil hne]
    exact List.mem_append_right _ List.mem_cons_self
  · obtain hb | hb := List.mem_append.1 hb
    · have hle := hl b hb
      omega
    · obtain rfl := List.mem_singleton.1 hb
      exact hlast identity hcom

/-- A pause that supersedes no activate still to let go of the replica before it. -/
theorem LastKept.pause (h : LastKept g l u) (hu : QueueKept u) (hc : c.command = .pause) (hg : c.generation = g + 1)
    (hl : ∀ b ∈ u.line, b.generation ≤ g)
    (hp : ∀ b ∈ u.pending, ∀ identity, b.command = .activate identity → b.generation ≠ g) :
    LastKept (g + 1) l { u with line := u.line ++ [c] } := by
  have hmove : ∀ m ∈ u.pending, m.Moves g → m.Moves (g + 1) := by
    intro m hm hmoves
    unfold ReplicaCall.Moves at hmoves ⊢
    cases hcom : m.command with
    | activate identity =>
      rw [hcom] at hmoves
      exact absurd hmoves (hp m hm identity hcom)
    | pause =>
      rw [hcom] at hmoves
      exact hmoves.elim
    | close => trivial
    | discard names => trivial
  refine ⟨?_, ?_, fun ho identity hr => ?_, fun b hb identity hcom hgen => ?_⟩
  · rw [SyncQueue.pending_enqueue hu]
    exact h.covered.snoc c hg (.inr hp)
  · rw [SyncQueue.pending_enqueue hu]
    obtain ⟨m, hm, hmoves⟩ | hact := h.active
    · exact .inl ⟨m, List.mem_append_left _ hm, hmove m hm hmoves⟩
    · exact .inr hact
  · have hst : u.stage.opens ≠ none := ho
    have hne : u.line ≠ [] := fun hn => by
      rw [hu.idle hn] at hst
      exact hst rfl
    have hlate : u.stage.early = false := by
      cases he : u.stage.early with
      | true => exact absurd (ReplicaStage.opens_early he) hst
      | false => rfl
    obtain ⟨c', hc', hcom⟩ := hr
    have hhead : (u.line ++ [c]).head? = u.line.head? := List.head?_append_of_ne_nil _ hne
    obtain ⟨m, hm, hmoves⟩ | hl' := h.opening hst identity ⟨c', hhead.symm.trans hc', hcom⟩
    · refine .inl ⟨m, ?_, hmove m (by rw [SyncQueue.pending_late hlate]; exact hm) hmoves⟩
      show m ∈ (u.line ++ [c]).tail
      rw [List.tail_append_of_ne_nil hne]
      exact List.mem_append_left _ hm
    · exact .inr hl'
  · obtain hb | hb := List.mem_append.1 hb
    · have hle := hl b hb
      omega
    · obtain rfl := List.mem_singleton.1 hb
      rw [hc] at hcom
      cases hcom

theorem LastKept.empty : LastKept g l emptyQueue where
  covered := trivial
  active := .inr nofun
  opening h := absurd rfl h
  calls _ h := nomatch h

/-! ## Runs -/

structure OpenKept (s : ReplicaStore) : Prop where
  given : GivenKept s
  held : HeldKept s
  last : LastKept s.generation s.last (s.queues s.current)

theorem OpenKept.runs (h : OpenKept s) (hr : RunsOn f q s s') (hf : ¬f) (hg : GivenKept s') : OpenKept s' := by
  refine ⟨hg, h.held.runs h.given hr hf, ?_⟩
  obtain ⟨⟨u', hq, -, hm, -⟩, hgen, hcur, hlast, -⟩ := hr
  rw [hgen, hcur, hlast]
  obtain ⟨rfl, hq'⟩ | ⟨-, hq'⟩ := queue_cases hq s.current
  · rw [hq']
    exact hm.lastKept hf (h.given.queues _) h.last
  · rw [hq']
    exact h.last

theorem ReplicaStore.serialize_current (s : ReplicaStore) (command : ReplicaCommand) :
    (s.serialize command).queues s.current =
      { s.queues s.current with line := (s.queues s.current).line ++ [⟨command, s.generation + 1⟩] } := Function.update_self ..

/-- A call that replaces or closes the replica. -/
theorem OpenKept.mover (h : OpenKept s) {command : ReplicaCommand} {l : Option String}
    (hm : ReplicaCall.Moves (s.generation + 1) ⟨command, s.generation + 1⟩)
    (hl : ∀ identity, command = .activate identity → l = some identity) :
    OpenKept { s.serialize command with last := l } := by
  refine ⟨(h.given.serialize command).of_same rfl rfl rfl, ?_, ?_⟩
  · exact (h.held.serialize h.given command).of_queues rfl rfl rfl fun _ => ⟨rfl, fun ho => ⟨ho, id⟩⟩
  · show LastKept (s.generation + 1) l ((s.serialize command).queues s.current)
    rw [s.serialize_current]
    exact h.last.mover (h.given.queues _) rfl hm (fun b hb => (h.given.calls _ b hb).1) hl

theorem OpenKept.of_queues (h : OpenKept s) (hq : s'.queues = s.queues) (hg : s'.generation = s.generation)
    (hc : s'.current = s.current) (hl : s'.last = s.last) (ho : s'.opened = s.opened)
    (hr : ∀ db, (s'.replicas db).identity = (s.replicas db).identity ∧
      ((s'.replicas db).isOpen = true → (s.replicas db).isOpen = true ∧
        ((s.replicas db).closing = true → (s'.replicas db).closing = true))) : OpenKept s' := by
  refine ⟨h.given.of_same hq hg hc, h.held.of_queues hq hc ho hr, ?_⟩
  rw [hg, hl, hq, hc]
  exact h.last

theorem OpenKept.step {action : ReplicaAction} (h : OpenKept s) (hs : WindsDown s action s') : OpenKept s' := by
  obtain ⟨hs, hpause, hfail, hshut⟩ := hs
  have hsame : ∀ db : Nat, (s.replicas db).identity = (s.replicas db).identity ∧
      ((s.replicas db).isOpen = true → (s.replicas db).isOpen = true ∧
        ((s.replicas db).closing = true → (s.replicas db).closing = true)) := fun _ => ⟨rfl, fun ho => ⟨ho, id⟩⟩
  by_cases hrun : ∃ q, action = .run q ∨ action = .fail q
  · obtain ⟨q, ha⟩ := hrun
    exact h.runs (hs.runs ha (h.given.queues q)) (fun hf => hfail q hf.1 hf.2) (hs.givenKept h.given)
  · cases hs with
    | @activate identity =>
      exact h.mover rfl fun identity' he => by
        obtain rfl := ReplicaCommand.activate.inj he
        rfl
    | pause =>
      refine ⟨h.given.serialize _, h.held.serialize h.given _, ?_⟩
      show LastKept (s.generation + 1) s.last ((s.serialize .pause).queues s.current)
      rw [s.serialize_current]
      exact h.last.pause (h.given.queues _) rfl rfl (fun b hb => (h.given.calls _ b hb).1) (hpause rfl)
    | close => exact h.mover trivial fun identity he => nomatch he
    | discard => exact h.mover trivial fun identity he => nomatch he
    | abandon =>
      refine ⟨h.given.abandon, h.held.abandon h.given, ?_⟩
      rw [s.abandon_current]
      exact .empty
    | takeOver ha hj => exact h.of_queues rfl rfl rfl rfl rfl hsame
    | @reconnect q db hm =>
      obtain ⟨hq, hg, hc, hl, -, hr, ho, -⟩ := s.reconnect_fields q db
      exact h.of_queues hq hg hc hl ho (by rw [hr]; exact hsame)
    | @shut db hcl =>
      refine h.of_queues rfl rfl rfl rfl rfl fun db' => ?_
      show (Function.update s.replicas db _ db').identity = _ ∧
        ((Function.update s.replicas db _ db').isOpen = true → _ ∧ (_ → (Function.update s.replicas db _ db').closing = true))
      by_cases hdb : db' = db
      · subst hdb
        rw [Function.update_self]
        exact ⟨rfl, nofun⟩
      · rw [Function.update_of_ne hdb]
        exact hsame db'
    | @shutFails db hcl => exact absurd rfl (hshut db)
    | _ => exact absurd ⟨_, by first | exact .inl rfl | exact .inr rfl⟩ hrun

theorem OpenKept.oneOpen (h : OpenKept s) (hs : AllSettled s) : OneOpen s := by
  have hwait : ∀ q, (s.queues q).stage = .waiting := fun q => (h.given.queues q).idle (hs.line q)
  have hheld : ∀ db, (s.replicas db).isOpen = true → ∃ a, (s.queues s.current).active = some a ∧ a.db = db := by
    intro db hopen
    obtain ⟨q, a, ha, hdb, rfl | hcl⟩ | ⟨q, hst⟩ := h.held.held db hopen
    · exact ⟨a, ha, hdb⟩
    · rw [hs.closing db] at hcl
      cases hcl
    · rw [hwait q] at hst
      cases hst
  refine ⟨fun db db' hopen hopen' => ?_, fun db hopen => ?_⟩
  · obtain ⟨a, ha, rfl⟩ := hheld db hopen
    obtain ⟨a', ha', rfl⟩ := hheld db' hopen'
    obtain rfl := Option.some.inj (ha.symm.trans ha')
    rfl
  · obtain ⟨a, ha, rfl⟩ := hheld db hopen
    obtain ⟨m, hm, -⟩ | hact := h.last.active
    · rw [SyncQueue.pending_early (by rw [hwait]; rfl), hs.line] at hm
      cases hm
    · rw [(h.held.active _ a ha).2]
      exact hact a ha

variable {files : String → Option String} {actions : List ReplicaAction}

theorem given_fresh : GivenKept (freshController files) where
  queues _ := .empty
  abandoned q := ⟨nofun, fun h => absurd h (Nat.not_lt_zero q)⟩
  fresh _ _ := rfl
  calls _ _ h := nomatch h

/-- Whatever calls are made, and whatever they wait for settles, fails or hangs in whatever order:
what syncs is the account's own replica, if no abandon comes too late, and once all is settled only
the replica of the last activate is open, if nothing that closes a replica failed. -/
theorem replicas_sync_own :
    (Run AbandonsInTime (freshController files) actions s → SyncsOwn s) ∧
      (Run WindsDown (freshController files) actions s → AllSettled s → OneOpen s) := by
  constructor
  · intro ha
    have hquiet : ∀ q, ((freshController files).queues q).abandoned = true →
        QuietQueue (freshController files).takeOvers q ((freshController files).queues q) := nofun
    have hstart : SyncKept (freshController files) := ⟨given_fresh, hquiet, .empty, nofun, nofun⟩
    exact (ha.invariant (fun _ _ _ h hs => h.step hs) hstart).sound
  · intro hw hs
    have hheld : HeldKept (freshController files) := ⟨nofun, nofun, nofun, nofun⟩
    have hstart : OpenKept (freshController files) := ⟨given_fresh, hheld, .empty⟩
    exact (hw.invariant (fun _ _ _ h hs => h.step hs) hstart).oneOpen hs

/-! ## Two runs -/

/-- A device with no files. -/
def newDevice : ReplicaStore := freshController fun _ => none

def annReplica : ActiveReplica where
  db := 0
  identity := "ann"
  filename := replicaFilename "ann"
  shared := false
  connector := false
  stopListening := false
  joined := false

def bobsCall : ReplicaCall := ⟨.activate "bob", 1⟩

def annsCall : ReplicaCall := ⟨.activate "ann", 3⟩

/-- Bob's open is given up while his replica opens, and drops it while Ann's open goes on; hers connects,
and her replica is the one that is open. -/
theorem ann_connected : ∃ s actions, Run ReplicaStep newDevice actions s ∧ s.resolved = [⟨"ann", some "ann"⟩] ∧
    SyncsOwn s ∧ (s.replicas 0).identity = "bob" ∧ (s.replicas 0).isOpen = false ∧
    (s.replicas 1).isOpen = true ∧ s.last = some (s.replicas 1).identity := by
  have quiet : ∀ {s s' : ReplicaStore} {action : ReplicaAction}, ReplicaStep s action s' →
      action ∈ [.activate "bob", .activate "ann", .run 0, .run 1] →
        AbandonsInTime s action s' ∧ WindsDown s action s' := by
    intro s s' action hs ha
    simp only [List.mem_cons, List.not_mem_nil, or_false] at ha
    rcases ha with rfl | rfl | rfl | rfl <;> exact ⟨⟨hs, nofun, nofun, nofun⟩, ⟨hs, nofun, nofun, nofun⟩⟩
  have hr : Run (fun s action s' => AbandonsInTime s action s' ∧ WindsDown s action s') newDevice
      [.activate "bob", .run 0, .run 0, .abandon, .activate "ann", .run 1, .run 0, .run 1, .run 0, .run 1, .run 1, .run 1,
        .run 1, .run 1] _ :=
    .cons (quiet (@ReplicaStep.activate newDevice "bob") (by decide)) <|
    .cons (quiet (@ReplicaStep.begin _ 0 bobsCall ⟨by rfl, by rfl⟩) (by decide)) <|
    .cons (quiet (@ReplicaStep.stopped _ 0 bobsCall false ⟨by rfl, by rfl⟩) (by decide)) <|
    .cons ⟨⟨@ReplicaStep.abandon _, fun _ => by decide, fun _ a ha => (by cases ha), fun _ c hc names hn => by
      obtain rfl : c = bobsCall := List.mem_singleton.1 hc
      cases hn⟩, ⟨@ReplicaStep.abandon _, nofun, nofun, nofun⟩⟩ <|
    .cons (quiet (@ReplicaStep.activate _ "ann") (by decide)) <|
    .cons (quiet (@ReplicaStep.begin _ 1 annsCall ⟨by rfl, by rfl⟩) (by decide)) <|
    .cons (quiet (@ReplicaStep.inited _ 0 bobsCall 0 ⟨by rfl, by rfl⟩) (by decide)) <|
    .cons (quiet (@ReplicaStep.stopped _ 1 annsCall false ⟨by rfl, by rfl⟩) (by decide)) <|
    .cons (quiet (@ReplicaStep.dropped _ 0 bobsCall 0 ⟨by rfl, by rfl⟩) (by decide)) <|
    .cons (quiet (@ReplicaStep.inited _ 1 annsCall 1 ⟨by rfl, by rfl⟩) (by decide)) <|
    .cons (quiet (@ReplicaStep.claim _ 1 annsCall "ann" 1 true ⟨by rfl, by rfl⟩ rfl) (by decide)) <|
    .cons (quiet (@ReplicaStep.claimed _ 1 annsCall "ann" 1 "ann" false ⟨by rfl, by rfl⟩ rfl) (by decide)) <|
    .cons (quiet (@ReplicaStep.disconnected _ 1 annsCall ⟨by rfl, by rfl⟩) (by decide)) <|
    .cons (quiet (@ReplicaStep.connect _ 1 annsCall "ann" { annReplica with db := 1 } ⟨by rfl, by rfl⟩ rfl rfl)
      (by decide)) .nil
  obtain ⟨hsync, hone⟩ := @replicas_sync_own _ (fun _ => none) _
  refine ⟨_, _, hr.mono fun _ _ _ h => h.1.step, rfl, hsync (hr.mono fun _ _ _ h => h.1), rfl, rfl, rfl, ?_⟩
  refine (hone (hr.mono fun _ _ _ h => h.2) ⟨fun q => ?_, fun db => ?_⟩).last 1 rfl
  · by_cases h0 : q = 0
    · subst h0
      rfl
    by_cases h1 : q = 1
    · subst h1
      rfl
    suffices h : _ = emptyQueue from congrArg SyncQueue.line h
    repeat first | refine (Function.update_of_ne h0 _ _).trans ?_ | refine (Function.update_of_ne h1 _ _).trans ?_
    rfl
  · by_cases h0 : db = 0
    · subst h0
      rfl
    by_cases h1 : db = 1
    · subst h1
      rfl
    suffices h : _ = Replica.mk "" false false from congrArg Replica.closing h
    repeat first | refine (Function.update_of_ne h0 _ _).trans ?_ | refine (Function.update_of_ne h1 _ _).trans ?_
    rfl

/-- An activate up to its history. -/
theorem ann_subscribing : ∃ s, Run ReplicaStep newDevice [.activate "ann", .run 0, .run 0, .run 0, .run 0, .run 0, .run 0] s ∧
    (s.queues 0).Awaits ⟨.activate "ann", 1⟩ .subscribing ∧ (s.queues 0).active = some annReplica ∧ s.current = 0 := by
  have hr : Run ReplicaStep newDevice [.activate "ann", .run 0, .run 0, .run 0, .run 0, .run 0, .run 0] _ :=
    .cons (@ReplicaStep.activate newDevice "ann") <|
    .cons (@ReplicaStep.begin _ 0 ⟨.activate "ann", 1⟩ ⟨by rfl, by rfl⟩) <|
    .cons (@ReplicaStep.stopped _ 0 ⟨.activate "ann", 1⟩ false ⟨by rfl, by rfl⟩) <|
    .cons (@ReplicaStep.inited _ 0 ⟨.activate "ann", 1⟩ 0 ⟨by rfl, by rfl⟩) <|
    .cons (@ReplicaStep.claim _ 0 ⟨.activate "ann", 1⟩ "ann" 0 true ⟨by rfl, by rfl⟩ rfl) <|
    .cons (@ReplicaStep.claimed _ 0 ⟨.activate "ann", 1⟩ "ann" 0 "ann" false ⟨by rfl, by rfl⟩ rfl) <|
    .cons (@ReplicaStep.disconnected _ 0 ⟨.activate "ann", 1⟩ ⟨by rfl, by rfl⟩) .nil
  exact ⟨_, hr, ⟨rfl, rfl⟩, rfl, rfl⟩

/-- The open hangs on its history and is given up; when the history answers, it connects. -/
theorem abandoned_connects : ∃ s actions, Run ReplicaStep newDevice actions s ∧ ∃ e ∈ s.starts, e.abandoned = true := by
  obtain ⟨s, hr, hawait, hact, hcur⟩ := ann_subscribing
  have hgiven : s.abandon.queues 0 = (s.queues 0).givenUp := hcur ▸ s.abandon_given
  have hs : ReplicaStep s.abandon (.run 0) (s.abandon.connect 0 "ann" annReplica) := by
    refine .connect (c := ⟨.activate "ann", 1⟩) ?_ rfl ?_
    · rw [hgiven]
      exact hawait
    · rw [hgiven]
      show (s.queues 0).active.map _ = _
      rw [hact]
      rfl
  refine ⟨_, _, (hr.snoc .abandon).snoc hs, ⟨0, (s.abandon.queues 0).abandoned⟩, List.mem_cons_self, ?_⟩
  rw [hgiven]
  rfl

end ClientBridge
