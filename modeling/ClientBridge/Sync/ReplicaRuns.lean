import ClientBridge.Sync.ReplicaQueues

/-!
# What syncs

On a queue that was given up nothing goes on to connect, as long as the abandon does not come after
the last check of an activate.  The replica of the current queue is stored as its account's own, as
long as no discard is left on a queue that was given up.
-/

namespace ClientBridge

open Runs

variable {f : Prop} {s s' : ReplicaStore} {q : Nat} {u u' : SyncQueue} {g : Nat} {c : ReplicaCall} {a : ActiveReplica}

/-! ## Queues given up -/

/-- Nothing on the queue connects anymore, and nothing on it wipes a file. -/
structure QuietQueue (takeOvers : List (Nat × Nat)) (q : Nat) (u : SyncQueue) : Prop where
  subscribing : u.stage ≠ .subscribing
  active : ∀ a, u.active = some a → a.joined = false ∧ (q, a.db) ∉ takeOvers
  discards : ∀ c ∈ u.line, ∀ names, c.command ≠ .discard names

theorem QuietQueue.sameActive {takeOvers : List (Nat × Nat)} (h : QuietQueue takeOvers q u) (ha : SameActive u u') :
    ∀ a, u'.active = some a → a.joined = false ∧ (q, a.db) ∉ takeOvers := by
  intro a hact
  obtain he | ⟨b, b', hb, hb', hs⟩ := ha
  · exact h.active a (he ▸ hact)
  · obtain rfl := Option.some.inj (hact.symm.trans hb')
    obtain ⟨hj, hm⟩ := h.active b hb
    exact ⟨hs.joined hj, by rw [hs.db]; exact hm⟩

/-- No call of an older generation connects. -/
theorem QueueMove.quiet {takeOvers : List (Nat × Nat)} (h : QueueMove f g u u') (hu : QuietQueue takeOvers q u)
    (hb : u.abandoned = true) (hg : ∀ c ∈ u.line, c.generation ≠ g) : QuietQueue takeOvers q u' := by
  have hdis : ∀ c ∈ u'.line, ∀ names, c.command ≠ .discard names := fun c hc => hu.discards c (h.line_subset c hc)
  have hnone : u'.active = none → ∀ a, u'.active = some a → a.joined = false ∧ (q, a.db) ∉ takeOvers := fun hn a ha => by
    rw [hn] at ha
    cases ha
  cases h with
  | early hc he he' hl ha hs hn =>
    refine ⟨fun hst => ?_, hu.sameActive ha, hdis⟩
    rw [hst] at he'
    cases he'
  | settle hc hl hs ha hm hd ho' => exact ⟨by rw [hs]; exact nofun, hu.sameActive ha, hdis⟩
  | lost hc hl hs ha hw hd hf' => exact ⟨by rw [hs]; exact nofun, hu.sameActive ha, hdis⟩
  | freed hc hl hs he ha hr => exact ⟨by rw [hs]; exact nofun, hnone ha, hdis⟩
  | opened hc hcom he hl hs ha hr => exact ⟨by rw [hs]; exact nofun, hnone ha, hdis⟩
  | discarding hc hcom he hl hs ha hr => exact ⟨by rw [hs]; exact nofun, hnone ha, hdis⟩
  | opening hc ho ho' hl ha =>
    refine ⟨fun hst => ?_, hu.sameActive (.inl ha), hdis⟩
    rw [hst] at ho'
    cases ho'
  | activated hc hcom ho hb' ha hn hs =>
    rw [hb] at hb'
    cases hb'
  | reached hc hcom hg' he hl hs ha ha' => exact absurd hg' (hg _ (List.mem_of_mem_head? hc))
  | subscribes hc hg' he hl hs ha => exact absurd hg' (hg _ (List.mem_of_mem_head? hc))
  | connected hc he hl hs ha ha' hdb hi hf => exact absurd he hu.subscribing

/-! ## The files -/

/-- The replica of the queue is stored as its account's own, unless a discard wipes it. -/
structure OwnFiles (files : String → Option String) (u : SyncQueue) : Prop where
  active : ∀ a, u.active = some a → files a.filename = some a.identity ∨ u.Discarding
  claimed : ∀ db owner, u.stage = .claimed db owner → ∀ identity, u.Runs (.activate identity) →
    files (replicaFilename identity) = some owner

variable {files files' : String → Option String}

theorem OwnFiles.mono (h : OwnFiles files u) (hf : ∀ name v, files name = some v → files' name = some v) :
    OwnFiles files' u where
  active a ha := (h.active a ha).imp (hf _ _) id
  claimed db owner hs identity hr := hf _ _ (h.claimed db owner hs identity hr)

theorem OwnFiles.empty : OwnFiles files emptyQueue where
  active _ h := nomatch h
  claimed _ _ h := nomatch h

theorem OwnFiles.enqueue (h : OwnFiles files u) (hu : QueueKept u) (c : ReplicaCall) :
    OwnFiles files { u with line := u.line ++ [c] } := by
  by_cases hl : u.line = []
  · have hs := hu.idle hl
    refine ⟨fun a ha => (h.active a ha).imp id fun hd => ?_, fun db owner hst => ?_⟩
    · exact absurd hd (not_discarding hs (by decide))
    · have hst' : u.stage = .claimed db owner := hst
      rw [hs] at hst'
      cases hst'
  · have hhead : (u.line ++ [c]).head? = u.line.head? := List.head?_append_of_ne_nil _ hl
    refine ⟨fun a ha => (h.active a ha).imp id ?_, fun db owner hst identity hr => ?_⟩
    · rintro ⟨⟨names, c', hc', hcom⟩, hst⟩
      exact ⟨⟨names, c', hhead.trans hc', hcom⟩, hst⟩
    · obtain ⟨c', hc', hcom⟩ := hr
      exact h.claimed db owner hst identity ⟨c', hhead.symm.trans hc', hcom⟩

theorem SameActive.own (h : OwnFiles files u) (ha : SameActive u u') (hd : u.Discarding → u'.Discarding) :
    ∀ a, u'.active = some a → files a.filename = some a.identity ∨ u'.Discarding := by
  intro a hact
  obtain he | ⟨b, b', hb, hb', hs⟩ := ha
  · exact (h.active a (he ▸ hact)).imp id hd
  · obtain rfl := Option.some.inj (hact.symm.trans hb')
    rw [hs.filename, hs.identity]
    exact (h.active b hb).imp id hd

/-- A move keeps the files its queue's own; a claim stored its owner. -/
theorem QueueMove.own (h : QueueMove f g u u') (hu : QueueKept u) (ho : OwnFiles files u)
    (hcl : ∀ db owner, u'.stage = .claimed db owner → ∀ identity, u'.Runs (.activate identity) →
      files (replicaFilename identity) = some owner) : OwnFiles files u' := by
  refine ⟨?_, hcl⟩
  have hnone : u'.active = none → ∀ a, u'.active = some a → files a.filename = some a.identity ∨ u'.Discarding :=
    fun hn a ha => by
      rw [hn] at ha
      cases ha
  have hcon : ∀ a, u.active = some a → u.stage = .disconnecting ∨ u.stage = .subscribing ∨ u.stage = .stopping →
      files a.filename = some a.identity := by
    intro a ha hs
    obtain hf | hd := ho.active a ha
    · exact hf
    · obtain hs | hs | hs := hs <;> exact absurd hd (not_discarding hs (by decide))
  cases h with
  | early hc he he' hl ha hs hn =>
    refine ha.own ho fun hd => ?_
    obtain ⟨⟨names, hr⟩, hst⟩ := hd
    exact ⟨⟨names, _, hl ▸ hc, hr.eq hc⟩, .inr (hn hst)⟩
  | settle hc hl hs ha hm hd ho' => exact ha.own ho fun hdis => absurd hdis hd
  | lost hc hl hs ha hw hd hf' => exact ha.own ho fun hdis => absurd hdis hd
  | freed hc hl hs he ha hr => exact hnone ha
  | opened hc hcom he hl hs ha hr => exact hnone ha
  | discarding hc hcom he hl hs ha hr => exact hnone ha
  | opening hc ho' ho'' hl ha => exact hnone (ha.trans (hu.opening (by rw [ho']; exact nofun)).2)
  | activated hc hcom ho' hb ha hn hs =>
    intro a ha'
    obtain rfl := Option.some.inj (ha.symm.trans ha')
    rw [hn]
    exact .inl (ho.claimed _ _ ho' _ ⟨_, hc, hcom⟩)
  | reached hc hcom hg he hl hs ha ha' =>
    intro b hb
    obtain rfl := Option.some.inj (ha'.symm.trans hb)
    exact .inl (hcon _ ha (.inr (.inr he)))
  | subscribes hc hg he hl hs ha => exact fun b hb => .inl (hcon b (ha ▸ hb) (.inl he))
  | connected hc he hl hs ha ha' hdb hi hf =>
    intro b hb
    obtain rfl := Option.some.inj (ha'.symm.trans hb)
    rw [hf, hi]
    exact .inl (hcon _ ha (.inr (.inl he)))

/-! ## What syncs -/

structure SyncKept (s : ReplicaStore) : Prop where
  given : GivenKept s
  quiet : ∀ q, (s.queues q).abandoned = true → QuietQueue s.takeOvers q (s.queues q)
  own : OwnFiles s.files (s.queues s.current)
  sound : SyncsOwn s

theorem SyncsOwn.of_same (h : SyncsOwn s) (hs : s'.starts = s.starts) (hv : s'.resolved = s.resolved) : SyncsOwn s' :=
  ⟨hs ▸ h.starts, hv ▸ h.resolved⟩

theorem GivenKept.le_current (h : GivenKept s) (hm : QueueMove f g (s.queues q) u') : q ≤ s.current := by
  by_contra hlt
  obtain ⟨c, hc⟩ := hm.head
  rw [h.fresh q (by omega)] at hc
  cases hc

/-- The queue of another call is as it was. -/
theorem queue_cases (hq : s'.queues = Function.update s.queues q u') (q' : Nat) :
    (q' = q ∧ s'.queues q' = u') ∨ (q' ≠ q ∧ s'.queues q' = s.queues q') := by
  rw [hq]
  by_cases he : q' = q
  · subst he
    exact .inl ⟨rfl, Function.update_self ..⟩
  · exact .inr ⟨he, Function.update_of_ne he ..⟩

theorem RunEffect.ownFiles (he : RunEffect f q s u' s') (hm : QueueMove f g (s.queues q) u') (hu : QueueKept (s.queues q))
    (ho : OwnFiles s.files (s.queues q)) : OwnFiles s'.files u' := by
  have hquiet : s'.files = s.files → (∀ db owner, u'.stage ≠ .claimed db owner) → OwnFiles s'.files u' := by
    intro hf hn
    rw [hf]
    exact hm.own hu ho fun db owner hst => absurd hst (hn db owner)
  cases he with
  | quiet hf hr ho hs hv hn hd hop => exact hquiet hf hn.2
  | opened hc hst hd hf hr ho hs hv => exact hquiet hf (by rw [hst]; exact nofun)
  | shut hst hf hr ho hs hv =>
    obtain ⟨hst, -⟩ | ⟨-, hst⟩ := hst
    · exact hquiet hf (by rw [hst]; exact nofun)
    · exact hquiet hf (by rw [hst]; exact nofun)
  | wiped hc hl hst hr ho hs hv hn =>
    refine ⟨fun a ha => .inr ?_, fun db owner hst' => absurd hst' (hn db owner)⟩
    obtain hst | hst := hst
    · obtain ⟨c, hc', hcom⟩ := hc
      exact ⟨⟨_, c, hl ▸ hc', hcom⟩, .inr (.inl hst)⟩
    · rw [hst] at ha
      cases ha
  | @owned db owner identity hc hl hst hop hd hown hf hr ho' hs hv =>
    refine hm.own hu (ho.mono hf) fun db' owner' hst' identity' hr' => ?_
    obtain ⟨-, rfl⟩ := ReplicaStage.claimed.inj (hst.symm.trans hst')
    obtain ⟨c, hc', hcom⟩ := hr'
    obtain rfl := ReplicaCommand.activate.inj ((hc.eq (hl ▸ hc')).symm.trans hcom)
    exact hown
  | connected hc hst ha hn hf hr ho' hs hv => exact hquiet hf (by rw [hn]; exact nofun)

theorem RunEffect.sound (he : RunEffect f q s u' s') (h : SyncKept s) (hq : q ≤ s.current) : SyncsOwn s' := by
  cases he with
  | quiet hf hr ho hs hv hn hd hop => exact h.sound.of_same hs hv
  | opened hc hst hd hf hr ho hs hv => exact h.sound.of_same hs hv
  | shut hst hf hr ho hs hv => exact h.sound.of_same hs hv
  | wiped hc hl hst hr ho hs hv hn => exact h.sound.of_same hs hv
  | owned hc hl hst hop hd hown hf hr ho' hs hv => exact h.sound.of_same hs hv
  | @connected identity a hc hst ha hn hf hr ho hs hv =>
    have hb : (s.queues q).abandoned = false :=
      Bool.eq_false_of_not_eq_true fun hb => (h.quiet q hb).subscribing hst
    have hcur : q = s.current := by
      by_contra hne
      have hlt := (h.given.abandoned q).2 (by omega)
      rw [hb] at hlt
      cases hlt
    subst hcur
    obtain ⟨a', ha', hr'⟩ := (h.given.queues s.current).connecting (.inr hst)
    obtain rfl := Option.some.inj (ha.symm.trans ha')
    obtain ⟨c, hc', hcom⟩ := hc
    have hid : identity = a.identity := ReplicaCommand.activate.inj (hcom.symm.trans (hr'.eq hc'))
    refine ⟨fun e he => ?_, fun e he => ?_⟩
    · rw [hs] at he
      obtain rfl | he := List.mem_cons.1 he
      · exact hb
      · exact h.sound.starts e he
    · rw [hv] at he
      obtain rfl | he := List.mem_cons.1 he
      · obtain hf' | hd := h.own.active a ha
        · exact hf'.trans (congrArg some hid.symm)
        · exact absurd hd (not_discarding hst (by decide))
      · exact h.sound.resolved e he

theorem SyncKept.runs (h : SyncKept s) (hr : RunsOn f q s s') (hg : GivenKept s') : SyncKept s' := by
  have hr' := hr
  obtain ⟨⟨u', hq, hb, hm, he⟩, -, hcur, -, ht⟩ := hr'
  have hle := h.given.le_current hm
  refine ⟨hg, fun q' hb' => ?_, ?_, he.sound h hle⟩
  · rw [ht]
    obtain ⟨rfl, hq'⟩ | ⟨-, hq'⟩ := queue_cases hq q'
    · rw [hq'] at hb' ⊢
      rw [hb] at hb'
      have hlt := (h.given.abandoned q').1 hb'
      refine hm.quiet (h.quiet q' hb') hb' fun c hc hgen => ?_
      have heq := (h.given.calls q' c hc).2 hgen
      omega
    · rw [hq'] at hb' ⊢
      exact h.quiet q' hb'
  · rw [hcur]
    obtain ⟨rfl, hq'⟩ | ⟨hne, hq'⟩ := queue_cases hq s.current
    · rw [hq']
      exact he.ownFiles hm (h.given.queues _) h.own
    · rw [hq']
      -- another queue was given up, and holds no discard
      have hquiet := h.quiet q ((h.given.abandoned q).2 (by omega))
      cases he with
      | quiet hf _ _ _ _ _ _ _ => exact hf ▸ h.own
      | opened _ _ _ hf _ _ _ _ => exact hf ▸ h.own
      | shut _ hf _ _ _ _ => exact hf ▸ h.own
      | wiped hc _ _ _ _ _ _ _ =>
        obtain ⟨c, hc', hcom⟩ := hc
        exact absurd hcom (hquiet.discards c (List.mem_of_mem_head? hc') _)
      | owned _ _ _ _ _ _ hf _ _ _ _ => exact h.own.mono hf
      | connected _ _ _ _ hf _ _ _ _ => exact hf ▸ h.own

theorem SyncKept.serialize (h : SyncKept s) (command : ReplicaCommand) : SyncKept (s.serialize command) := by
  have hown : (s.serialize command).queues s.current =
      { s.queues s.current with line := (s.queues s.current).line ++ [⟨command, s.generation + 1⟩] } := Function.update_self ..
  refine ⟨h.given.serialize command, fun q' hb => ?_, ?_, h.sound.of_same rfl rfl⟩
  · have hlt := ((h.given.serialize command).abandoned q').1 hb
    have hq' : (s.serialize command).queues q' = s.queues q' :=
      Function.update_of_ne (by have : q' < s.current := hlt; omega) ..
    rw [hq'] at hb ⊢
    exact h.quiet q' hb
  · show OwnFiles s.files ((s.serialize command).queues s.current)
    rw [hown]
    exact h.own.enqueue (h.given.queues _) _

/-- The account of the last activate does not matter here. -/
theorem SyncKept.of_same (h : SyncKept s) (hq : s'.queues = s.queues) (hg : s'.generation = s.generation)
    (hc : s'.current = s.current) (ht : s'.takeOvers = s.takeOvers) (hf : s'.files = s.files) (hs : s'.starts = s.starts)
    (hv : s'.resolved = s.resolved) : SyncKept s' := by
  refine ⟨h.given.of_same hq hg hc, fun q hb => ?_, ?_, h.sound.of_same hs hv⟩
  · rw [hq] at hb ⊢
    rw [ht]
    exact h.quiet q hb
  · rw [hf, hq, hc]
    exact h.own

theorem SyncKept.abandon (h : SyncKept s) (hst : (s.queues s.current).stage ≠ .subscribing)
    (ht : ∀ a, (s.queues s.current).active = some a → (s.current, a.db) ∉ s.takeOvers)
    (hd : ∀ c ∈ (s.queues s.current).line, ∀ names, c.command ≠ .discard names) : SyncKept s.abandon := by
  obtain ⟨-, hcur, -, htake, hf, hs, hv, -⟩ := s.abandon_fields
  refine ⟨h.given.abandon, fun q hb => ?_, ?_, h.sound.of_same hs hv⟩
  · have hlt := (h.given.abandon.abandoned q).1 hb
    rw [htake]
    by_cases hq : q = s.current
    · subst hq
      rw [s.abandon_given]
      refine ⟨hst, fun a ha => ?_, hd⟩
      obtain ⟨b, hb', rfl⟩ := Option.map_eq_some_iff.1 (show (s.queues s.current).active.map _ = some a from ha)
      exact ⟨rfl, ht b hb'⟩
    · rw [s.abandon_other hq (by omega)] at hb ⊢
      exact h.quiet q hb
  · rw [s.abandon_current]
    exact .empty

theorem SyncKept.takeOver (h : SyncKept s) (ha : (s.queues q).active = some a) (hj : a.joined = true) :
    SyncKept (s.takeOver q a) := by
  refine ⟨h.given.of_same rfl rfl rfl, fun q' hb => ?_, h.own, h.sound.of_same rfl rfl⟩
  obtain ⟨hst, hact, hd⟩ := h.quiet q' hb
  refine ⟨hst, fun b hb' => ⟨(hact b hb').1, fun hm => ?_⟩, hd⟩
  obtain he | hm := List.mem_cons.1 hm
  · obtain ⟨rfl, -⟩ := Prod.mk.inj he
    obtain rfl := Option.some.inj (ha.symm.trans hb')
    rw [(hact a ha).1] at hj
    cases hj
  · exact (hact b hb').2 hm

theorem ReplicaStore.reconnects_some {db : Nat} (h : s.reconnects q db = true) :
    ∃ a, (s.queues q).active = some a ∧ a.db = db := by
  unfold ReplicaStore.reconnects at h
  cases ha : (s.queues q).active with
  | none =>
    rw [ha] at h
    cases h
  | some a =>
    rw [ha] at h
    simp only [Option.any_some, Bool.and_eq_true, decide_eq_true_eq] at h
    exact ⟨a, rfl, h.1.1⟩

theorem SyncKept.reconnect (h : SyncKept s) {db : Nat} (hm : (q, db) ∈ s.takeOvers) : SyncKept (s.reconnect q db) := by
  obtain ⟨hq, hg, hc, -, hf, -, -, hv, ht⟩ := s.reconnect_fields q db
  refine ⟨h.given.of_same hq hg hc, fun q' hb => ?_, ?_, ?_, ?_⟩
  · rw [hq] at hb ⊢
    rw [ht]
    obtain ⟨hst, hact, hd⟩ := h.quiet q' hb
    exact ⟨hst, fun b hb' => ⟨(hact b hb').1, fun hm' => (hact b hb').2 (List.mem_of_mem_erase hm')⟩, hd⟩
  · rw [hf, hq, hc]
    exact h.own
  · unfold ReplicaStore.reconnect
    dsimp only
    split
    · next hr =>
      intro e he
      obtain rfl | he := List.mem_cons.1 he
      · refine Bool.eq_false_of_not_eq_true fun hb => ?_
        obtain ⟨a, ha, rfl⟩ := ReplicaStore.reconnects_some hr
        exact ((h.quiet q hb).active a ha).2 hm
      · exact h.sound.starts e he
    · exact h.sound.starts
  · rw [hv]
    exact h.sound.resolved

theorem SyncKept.step {action : ReplicaAction} (h : SyncKept s) (hs : AbandonsInTime s action s') : SyncKept s' := by
  obtain ⟨hs, hsub, htake, hdis⟩ := hs
  by_cases hrun : ∃ q, action = .run q ∨ action = .fail q
  · obtain ⟨q, ha⟩ := hrun
    exact h.runs (hs.runs ha (h.given.queues q)) (hs.givenKept h.given)
  · cases hs with
    | activate => exact (h.serialize _).of_same rfl rfl rfl rfl rfl rfl rfl
    | pause => exact h.serialize _
    | close => exact (h.serialize _).of_same rfl rfl rfl rfl rfl rfl rfl
    | discard => exact (h.serialize _).of_same rfl rfl rfl rfl rfl rfl rfl
    | abandon => exact h.abandon (hsub rfl) (htake rfl) (hdis rfl)
    | takeOver ha hj => exact h.takeOver ha hj
    | reconnect hm => exact h.reconnect hm
    | shut hc => exact h.of_same rfl rfl rfl rfl rfl rfl rfl
    | shutFails hc => exact h.of_same rfl rfl rfl rfl rfl rfl rfl
    | _ => exact absurd ⟨_, by first | exact .inl rfl | exact .inr rfl⟩ hrun

end ClientBridge
