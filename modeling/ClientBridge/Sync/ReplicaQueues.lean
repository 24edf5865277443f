import ClientBridge.Sync.Replicas

/-!
# Queues of the replica controller

The first call of a queue is at one stage at a time, and what the queue holds follows from the stage
(`QueueKept`).  A segment of a call makes one of a few moves of its queue (`QueueMove`) and has one
effect on the rest (`RunEffect`); what the controller keeps is proved from these.
-/

namespace ClientBridge

open Runs

/-! ## One queue -/

/-- A replica is being opened, or closed as it could not be. -/
def ReplicaStage.opens : ReplicaStage → Option Nat
  | .opening db | .claiming db | .claimed db _ | .dropping db => some db
  | _ => none

theorem ReplicaStage.opens_early {stage : ReplicaStage} (h : stage.early = true) : stage.opens = none := by
  cases stage <;> first | rfl | cases h

/-- The first call of a queue is of this command. -/
def SyncQueue.Runs (u : SyncQueue) (command : ReplicaCommand) : Prop := ∃ c, u.line.head? = some c ∧ c.command = command

/-- What a queue holds at each stage. -/
structure QueueKept (u : SyncQueue) : Prop where
  idle : u.line = [] → u.stage = .waiting
  opening : u.stage.opens ≠ none → (∃ identity, u.Runs (.activate identity)) ∧ u.active = none
  connecting : u.stage = .disconnecting ∨ u.stage = .subscribing →
    ∃ a, u.active = some a ∧ u.Runs (.activate a.identity)
  removing : ∀ names, u.stage = .removing names → (∃ names, u.Runs (.discard names)) ∧ u.active = none
  clearing : u.stage = .clearing → ∃ names, u.Runs (.discard names)
  named : ∀ a, u.active = some a → a.filename = replicaFilename a.identity

variable {u : SyncQueue} {c : ReplicaCall} {a : ActiveReplica}

theorem SyncQueue.Runs.eq {command : ReplicaCommand} (h : u.Runs command) (hc : u.line.head? = some c) : c.command = command := by
  obtain ⟨c', hc', he⟩ := h
  obtain rfl := Option.some.inj (hc.symm.trans hc')
  exact he

theorem QueueKept.empty : QueueKept emptyQueue where
  idle _ := rfl
  opening h := absurd rfl h
  connecting h := h.elim (fun h => nomatch h) fun h => nomatch h
  removing _ h := nomatch h
  clearing h := nomatch h
  named _ h := nomatch h

/-- At its turn a queue asks nothing. -/
theorem QueueKept.of_waiting (hs : u.stage = .waiting) (hn : ∀ a, u.active = some a → a.filename = replicaFilename a.identity) :
    QueueKept u where
  idle _ := hs
  opening h := by
    rw [hs] at h
    exact absurd rfl h
  connecting h := by
    rw [hs] at h
    exact h.elim (fun h => nomatch h) fun h => nomatch h
  removing _ h := by
    rw [hs] at h
    cases h
  clearing h := by
    rw [hs] at h
    cases h
  named := hn

/-- Stages on the way to let a replica go. -/
theorem QueueKept.of_early (hc : u.line.head? = some c) (he : u.stage.early = true) (hs : u.stage = .clearing → ∃ names, c.command = .discard names)
    (hn : ∀ a, u.active = some a → a.filename = replicaFilename a.identity) : QueueKept u where
  idle h := by
    rw [h] at hc
    cases hc
  opening h := absurd (ReplicaStage.opens_early he) h
  connecting h := by
    obtain h | h := h <;>
      · rw [h] at he
        cases he
  removing _ h := by
    rw [h] at he
    cases he
  clearing h := by
    obtain ⟨names, hd⟩ := hs h
    exact ⟨names, c, hc, hd⟩
  named := hn

theorem QueueKept.of_opening {db : Nat} {identity : String} (hc : u.line.head? = some c) (hcom : c.command = .activate identity)
    (ho : u.stage.opens = some db) (hn : u.active = none) : QueueKept u where
  idle h := by
    rw [h] at hc
    cases hc
  opening _ := ⟨⟨identity, c, hc, hcom⟩, hn⟩
  connecting h := by
    obtain h | h := h <;>
      · rw [h] at ho
        cases ho
  removing _ h := by
    rw [h] at ho
    cases ho
  clearing h := by
    rw [h] at ho
    cases ho
  named a h := by
    rw [hn] at h
    cases h

theorem QueueKept.of_connecting (hc : u.line.head? = some c) (hs : u.stage = .disconnecting ∨ u.stage = .subscribing)
    (ha : u.active = some a) (hcom : c.command = .activate a.identity) (hn : a.filename = replicaFilename a.identity) :
    QueueKept u where
  idle h := by
    rw [h] at hc
    cases hc
  opening h := by
    obtain hs | hs := hs <;>
      · rw [hs] at h
        exact absurd rfl h
  connecting _ := ⟨a, ha, c, hc, hcom⟩
  removing _ h := by
    obtain hs | hs := hs <;>
      · rw [h] at hs
        cases hs
  clearing h := by
    obtain hs | hs := hs <;>
      · rw [h] at hs
        cases hs
  named a' ha' := by
    obtain rfl := Option.some.inj (ha.symm.trans ha')
    exact hn

theorem QueueKept.of_removing {names names' : List String} (hc : u.line.head? = some c) (hcom : c.command = .discard names')
    (hs : u.stage = .removing names) (hn : u.active = none) : QueueKept u where
  idle h := by
    rw [h] at hc
    cases hc
  opening h := by
    rw [hs] at h
    exact absurd rfl h
  connecting h := by
    rw [hs] at h
    exact h.elim (fun h => nomatch h) fun h => nomatch h
  removing _ _ := ⟨⟨names', c, hc, hcom⟩, hn⟩
  clearing h := by
    rw [hs] at h
    cases h
  named a h := by
    rw [hn] at h
    cases h

/-- A call that joins the line leaves the one that runs first. -/
theorem QueueKept.enqueue (h : QueueKept u) (c : ReplicaCall) : QueueKept { u with line := u.line ++ [c] } := by
  by_cases hl : u.line = []
  · exact .of_waiting (h.idle hl) h.named
  · have hruns : ∀ {command}, u.Runs command → SyncQueue.Runs { u with line := u.line ++ [c] } command := by
      rintro command ⟨c', hc', he⟩
      exact ⟨c', (List.head?_append_of_ne_nil _ hl).trans hc', he⟩
    exact
      { idle := fun hn => absurd hn (by simp)
        opening := fun ho => ⟨(h.opening ho).1.imp fun _ hr => hruns hr, (h.opening ho).2⟩
        connecting := fun hs => (h.connecting hs).imp fun _ hr => ⟨hr.1, hruns hr.2⟩
        removing := fun names hs => ⟨(h.removing names hs).1.imp fun _ hr => hruns hr, (h.removing names hs).2⟩
        clearing := fun hs => (h.clearing hs).imp fun _ hr => hruns hr
        named := h.named }

/-- Every queue of a controller. -/
def QueuesKept (s : ReplicaStore) : Prop := ∀ q, QueueKept (s.queues q)

variable {s s' : ReplicaStore} {q : Nat}

theorem QueuesKept.update (h : QueuesKept s) (hu : QueueKept u) {t : ReplicaStore} (ht : t.queues = Function.update s.queues q u) :
    QueuesKept t := by
  intro q'
  rw [ht]
  by_cases hq : q' = q
  · subst hq
    rw [Function.update_self]
    exact hu
  · rw [Function.update_of_ne hq]
    exact h q'

/-! ## What a call makes of its queue -/

/-- Whether the call, when it comes to it, closes the replica the queue holds or replaces it. -/
def ReplicaCall.Moves (g : Nat) (c : ReplicaCall) : Prop :=
  match c.command with
  | .activate _ => c.generation = g
  | .pause => False
  | .close | .discard _ => True

/-- A discard is about to wipe the replica, or has. -/
def SyncQueue.Discarding (u : SyncQueue) : Prop :=
  (∃ names, u.Runs (.discard names)) ∧ (u.stage = .clearing ∨ u.stage = .closing ∨ u.stage = .closed)

/-- The same replica, listened to by no more than before. -/
structure SameReplica (a a' : ActiveReplica) : Prop where
  db : a'.db = a.db
  identity : a'.identity = a.identity
  filename : a'.filename = a.filename
  joined : a.joined = false → a'.joined = false

def SameActive (u u' : SyncQueue) : Prop :=
  u'.active = u.active ∨ ∃ a a', u.active = some a ∧ u'.active = some a' ∧ SameReplica a a'

/-- What the first call of a queue makes of it from one promise to the next; `f` if that one failed. -/
inductive QueueMove (f : Prop) (g : Nat) (u : SyncQueue) : SyncQueue → Prop
  | early {c u'} (hc : u.line.head? = some c) (he : u.stage.early = true) (he' : u'.stage.early = true)
      (hl : u'.line = u.line) (ha : SameActive u u') (hs : u'.stage = .clearing → ∃ names, c.command = .discard names)
      (hn : u.stage = .clearing ∨ u.stage = .closing ∨ u.stage = .closed → u'.stage = .closing ∨ u'.stage = .closed) :
      QueueMove f g u u'
  | settle {c u'} (hc : u.line.head? = some c) (hl : u'.line = u.line.tail) (hs : u'.stage = .waiting) (ha : SameActive u u')
      (hm : u.stage.early = true → ¬c.Moves g ∨ u.active = none) (hd : ¬u.Discarding)
      (ho : u.stage.opens = none ∨ ∃ db, u.stage = .dropping db) : QueueMove f g u u'
  /-- The close of a replica failed. -/
  | lost {c u'} (hc : u.line.head? = some c) (hl : u'.line = u.line.tail) (hs : u'.stage = .waiting) (ha : SameActive u u')
      (hw : u.windsDown) (hd : ¬u.Discarding) (hf : f) : QueueMove f g u u'
  | freed {c u'} (hc : u.line.head? = some c) (hl : u'.line = u.line.tail) (hs : u'.stage = .waiting)
      (he : u.stage.early = true) (ha : u'.active = none) (hr : u.stage = .closed ∨ u.active = none ∨ f) : QueueMove f g u u'
  | opened {c u' identity db} (hc : u.line.head? = some c) (hcom : c.command = .activate identity) (he : u.stage.early = true)
      (hl : u'.line = u.line) (hs : u'.stage = .opening db) (ha : u'.active = none)
      (hr : u.stage = .closed ∨ u.active = none ∨ f) : QueueMove f g u u'
  | discarding {c u' names names'} (hc : u.line.head? = some c) (hcom : c.command = .discard names)
      (he : u.stage.early = true ∨ ∃ names, u.stage = .removing names) (hl : u'.line = u.line)
      (hs : u'.stage = .removing names') (ha : u'.active = none) (hr : u.stage = .closed ∨ u.active = none ∨ f) :
      QueueMove f g u u'
  | opening {c u' db} (hc : u.line.head? = some c) (ho : u.stage.opens = some db) (ho' : u'.stage.opens = some db)
      (hl : u'.line = u.line) (ha : u'.active = u.active) : QueueMove f g u u'
  | activated {c u' a} (hc : u.line.head? = some c) (hcom : c.command = .activate a.identity)
      (ho : u.stage = .claimed a.db a.identity) (hb : u.abandoned = false) (ha : u'.active = some a)
      (hn : a.filename = replicaFilename a.identity)
      (hs : (u'.line = u.line ∧ u'.stage = .disconnecting) ∨ (u'.line = u.line.tail ∧ u'.stage = .waiting)) : QueueMove f g u u'
  | reached {c u' a} (hc : u.line.head? = some c) (hcom : c.command = .activate a.identity) (hg : c.generation = g)
      (he : u.stage = .stopping) (hl : u'.line = u.line) (hs : u'.stage = .disconnecting) (ha : u.active = some a)
      (ha' : u'.active = some a) : QueueMove f g u u'
  | subscribes {c u'} (hc : u.line.head? = some c) (hg : c.generation = g) (he : u.stage = .disconnecting)
      (hl : u'.line = u.line) (hs : u'.stage = .subscribing) (ha : u'.active = u.active) : QueueMove f g u u'
  | connected {c u' a a'} (hc : u.line.head? = some c) (he : u.stage = .subscribing) (hl : u'.line = u.line.tail)
      (hs : u'.stage = .waiting) (ha : u.active = some a) (ha' : u'.active = some a') (hdb : a'.db = a.db)
      (hi : a'.identity = a.identity) (hf : a'.filename = a.filename) : QueueMove f g u u'

variable {u' : SyncQueue} {g : Nat} {f : Prop}

theorem SameActive.named (h : SameActive u u') (hn : ∀ a, u.active = some a → a.filename = replicaFilename a.identity) :
    ∀ a, u'.active = some a → a.filename = replicaFilename a.identity := by
  intro a ha
  obtain he | ⟨b, b', hb, hb', hs⟩ := h
  · exact hn a (he ▸ ha)
  · obtain rfl := Option.some.inj (ha.symm.trans hb')
    rw [hs.filename, hs.identity]
    exact hn b hb

theorem QueueMove.kept (h : QueueMove f g u u') (hu : QueueKept u) : QueueKept u' := by
  cases h with
  | early hc he he' hl ha hs hn => exact .of_early (hl ▸ hc) he' hs (ha.named hu.named)
  | settle hc hl hs ha hm hd ho => exact .of_waiting hs (ha.named hu.named)
  | lost hc hl hs ha hw hd hf => exact .of_waiting hs (ha.named hu.named)
  | freed hc hl hs he ha hr =>
    refine .of_waiting hs fun a h => ?_
    rw [ha] at h
    cases h
  | opened hc hcom he hl hs ha hr => exact .of_opening (hl ▸ hc) hcom (by rw [hs]; rfl) ha
  | discarding hc hcom he hl hs ha hr => exact .of_removing (hl ▸ hc) hcom hs ha
  | opening hc ho ho' hl ha =>
    obtain ⟨⟨identity, hr⟩, hn⟩ := hu.opening (by rw [ho]; exact fun h => nomatch h)
    exact .of_opening (hl ▸ hc) (hr.eq hc) ho' (ha.trans hn)
  | @activated c _ a hc hcom ho hb ha hn hs =>
    obtain ⟨hl, hs⟩ | ⟨hl, hs⟩ := hs
    · exact .of_connecting (hl ▸ hc) (.inl hs) ha hcom hn
    · refine .of_waiting hs fun a' ha' => ?_
      obtain rfl := Option.some.inj (ha.symm.trans ha')
      exact hn
  | reached hc hcom hg he hl hs ha ha' => exact .of_connecting (hl ▸ hc) (.inl hs) ha' hcom (hu.named _ ha)
  | subscribes hc hg he hl hs ha =>
    obtain ⟨a, hact, hr⟩ := hu.connecting (.inl he)
    exact .of_connecting (hl ▸ hc) (.inr hs) (ha.trans hact) (hr.eq hc) (hu.named a hact)
  | connected hc he hl hs ha ha' hdb hi hf =>
    refine .of_waiting hs fun b hb => ?_
    obtain rfl := Option.some.inj (ha'.symm.trans hb)
    rw [hf, hi]
    exact hu.named _ ha

theorem QueueMove.head (h : QueueMove f g u u') : ∃ c, u.line.head? = some c := by
  cases h <;> exact ⟨_, by assumption⟩

/-- What a segment does to the rest of the store. -/
inductive RunEffect (f : Prop) (q : Nat) (s : ReplicaStore) (u' : SyncQueue) (s' : ReplicaStore) : Prop
  | quiet (hf : s'.files = s.files) (hr : s'.replicas = s.replicas) (ho : s'.opened = s.opened)
      (hs : s'.starts = s.starts) (hv : s'.resolved = s.resolved)
      (hn : u'.stage ≠ .closed ∧ ∀ db owner, u'.stage ≠ .claimed db owner) (hd : f ∨ ∀ db, (s.queues q).stage ≠ .dropping db)
      (hop : ∀ db, u'.stage.opens = some db → (s.queues q).stage.opens = some db) : RunEffect f q s u' s'
  | opened {identity} (hc : (s.queues q).Runs (.activate identity)) (hst : u'.stage = .opening s.opened)
      (hd : ∀ db, (s.queues q).stage ≠ .dropping db)
      (hf : s'.files = s.files) (hr : s'.replicas = Function.update s.replicas s.opened ⟨identity, true, false⟩)
      (ho : s'.opened = s.opened + 1) (hs : s'.starts = s.starts) (hv : s'.resolved = s.resolved) : RunEffect f q s u' s'
  | shut {db} (hst : (u'.stage = .closed ∧ u'.active = (s.queues q).active ∧ ∃ a, (s.queues q).active = some a ∧ a.db = db) ∨
        ((s.queues q).stage = .dropping db ∧ u'.stage = .waiting))
      (hf : s'.files = s.files)
      (hr : s'.replicas = Function.update s.replicas db { s.replicas db with isOpen := false, closing := false })
      (ho : s'.opened = s.opened) (hs : s'.starts = s.starts) (hv : s'.resolved = s.resolved) : RunEffect f q s u' s'
  | wiped {names} (hc : (s.queues q).Runs (.discard names)) (hl : u'.line = (s.queues q).line)
      (hst : u'.stage = .closing ∨ u'.active = none)
      (hr : s'.replicas = s.replicas) (ho : s'.opened = s.opened) (hs : s'.starts = s.starts)
      (hv : s'.resolved = s.resolved) (hn : ∀ db owner, u'.stage ≠ .claimed db owner) : RunEffect f q s u' s'
  | owned {db owner identity} (hc : (s.queues q).Runs (.activate identity)) (hl : u'.line = (s.queues q).line)
      (hst : u'.stage = .claimed db owner) (hop : (s.queues q).stage.opens = some db) (hd : ∀ db, (s.queues q).stage ≠ .dropping db)
      (hown : s'.files (replicaFilename identity) = some owner)
      (hf : ∀ name v, s.files name = some v → s'.files name = some v) (hr : s'.replicas = s.replicas)
      (ho : s'.opened = s.opened) (hs : s'.starts = s.starts) (hv : s'.resolved = s.resolved) : RunEffect f q s u' s'
  | connected {identity a} (hc : (s.queues q).Runs (.activate identity)) (hst : (s.queues q).stage = .subscribing)
      (ha : (s.queues q).active = some a) (hn : u'.stage = .waiting) (hf : s'.files = s.files)
      (hr : s'.replicas = s.replicas) (ho : s'.opened = s.opened)
      (hs : s'.starts = ⟨q, (s.queues q).abandoned⟩ :: s.starts)
      (hv : s'.resolved = ⟨identity, s.files a.filename⟩ :: s.resolved) : RunEffect f q s u' s'

/-- A segment of the first call of `q`: what it makes of its queue, and what it does to the rest. -/
structure RunsOn (f : Prop) (q : Nat) (s s' : ReplicaStore) : Prop where
  queues : ∃ u', s'.queues = Function.update s.queues q u' ∧ u'.abandoned = (s.queues q).abandoned ∧
    QueueMove f s.generation (s.queues q) u' ∧ RunEffect f q s u' s'
  generation : s'.generation = s.generation
  current : s'.current = s.current
  last : s'.last = s.last
  takeOvers : s'.takeOvers = s.takeOvers

theorem RunsOn.quiet {u' : SyncQueue} (hb : u'.abandoned = (s.queues q).abandoned)
    (hm : QueueMove f s.generation (s.queues q) u') (hn : u'.stage ≠ .closed ∧ ∀ db owner, u'.stage ≠ .claimed db owner)
    (hd : f ∨ ∀ db, (s.queues q).stage ≠ .dropping db)
    (hop : ∀ db, u'.stage.opens = some db → (s.queues q).stage.opens = some db) : RunsOn f q s (s.setQueue q u') :=
  ⟨⟨u', rfl, hb, hm, .quiet rfl rfl rfl rfl rfl hn hd hop⟩, rfl, rfl, rfl, rfl⟩

theorem RunsOn.effect {u' : SyncQueue} {t : ReplicaStore} (hq : t.queues = s.queues) (hb : u'.abandoned = (s.queues q).abandoned)
    (hm : QueueMove f s.generation (s.queues q) u') (he : RunEffect f q s u' (t.setQueue q u'))
    (hg : t.generation = s.generation) (hc : t.current = s.current) (hl : t.last = s.last)
    (ht : t.takeOvers = s.takeOvers) : RunsOn f q s (t.setQueue q u') :=
  ⟨⟨u', by rw [← hq]; rfl, hb, hm, he⟩, hg, hc, hl, ht⟩

theorem not_discarding {stage : ReplicaStage} (hs : u.stage = stage) (h : stage ≠ .clearing ∧ stage ≠ .closing ∧ stage ≠ .closed) :
    ¬u.Discarding := by
  rintro ⟨-, hd | hd | hd⟩
  · exact h.1 (hs.symm.trans hd)
  · exact h.2.1 (hs.symm.trans hd)
  · exact h.2.2 (hs.symm.trans hd)

/-- No stage of these is one a discard wipes at. -/
theorem not_wiping {stage : ReplicaStage} (hs : u.stage = stage) (h : stage ≠ .clearing ∧ stage ≠ .closing ∧ stage ≠ .closed)
    {P : Prop} : u.stage = .clearing ∨ u.stage = .closing ∨ u.stage = .closed → P := by
  rintro (hd | hd | hd)
  · exact absurd (hs.symm.trans hd) h.1
  · exact absurd (hs.symm.trans hd) h.2.1
  · exact absurd (hs.symm.trans hd) h.2.2

theorem not_dropping {stage : ReplicaStage} (hs : u.stage = stage) (h : ∀ db, stage ≠ .dropping db) : ∀ db, u.stage ≠ .dropping db :=
  fun db hd => h db (hs.symm.trans hd)

theorem not_dropping_early (he : u.stage.early = true) : ∀ db, u.stage ≠ .dropping db := fun db hd => by
  rw [hd] at he
  cases he

theorem begin_runs (h : (s.queues q).Awaits c .waiting) : RunsOn f q s (s.begin q c) := by
  obtain ⟨hc, hs⟩ := h
  have hgoes : RunsOn f q s (s.setQueue q { s.queues q with stopHistory := none, stage := .stopping }) :=
    .quiet rfl (.early hc (by rw [hs]; rfl) rfl rfl (.inl rfl) (fun h => nomatch h) (not_wiping hs (by decide))) ⟨nofun, nofun⟩ (.inr (not_dropping hs nofun)) nofun
  unfold ReplicaStore.begin
  dsimp only
  split
  · next identity hcom =>
    split
    · next hne =>
      have hnot : ¬c.Moves s.generation := by
        unfold ReplicaCall.Moves
        rw [hcom]
        exact hne
      exact .quiet rfl (.settle hc rfl rfl (.inl rfl) (fun _ => .inl hnot) (not_discarding hs (by decide)) (.inl (by rw [hs]; rfl))) ⟨nofun, nofun⟩ (.inr (not_dropping hs nofun)) nofun
    · exact hgoes
  · exact hgoes

/-- A replica is opened unless that throws; the queue holds none. -/
theorem openReplica_runs {identity : String} {throws : Bool} (hc : (s.queues q).line.head? = some c)
    (hcom : c.command = .activate identity) (he : (s.queues q).stage.early = true) (hl : u.line = (s.queues q).line)
    (ha : u.active = none) (hb : u.abandoned = (s.queues q).abandoned)
    (hr : (s.queues q).stage = .closed ∨ (s.queues q).active = none ∨ f) : RunsOn f q s (s.openReplica q u identity throws) := by
  unfold ReplicaStore.openReplica
  split
  · exact .quiet hb (.freed hc (congrArg List.tail hl) rfl he ha hr) ⟨nofun, nofun⟩ (.inr (not_dropping_early he)) nofun
  · exact .effect (t := { s.setReplica s.opened ⟨identity, true, false⟩ with opened := s.opened + 1 }) rfl hb
      (.opened hc hcom he hl rfl ha hr) (.opened ⟨c, hc, hcom⟩ rfl (not_dropping_early he) rfl rfl rfl rfl rfl) rfl rfl rfl rfl

theorem SameReplica.detached (a : ActiveReplica) : SameReplica a { a with stopListening := false, joined := false } :=
  ⟨rfl, rfl, rfl, fun _ => rfl⟩

theorem stopped_runs {throws : Bool} (h : (s.queues q).Awaits c .stopping) : RunsOn f q s (s.stopped q c throws) := by
  obtain ⟨hc, hs⟩ := h
  have he : (s.queues q).stage.early = true := by rw [hs]; rfl
  have hwipe : ∀ {P : Prop}, (s.queues q).stage = .clearing ∨ (s.queues q).stage = .closing ∨ (s.queues q).stage = .closed → P :=
    not_wiping hs (by decide)
  have hnd : ¬(s.queues q).Discarding := not_discarding hs (by decide)
  have hop : (s.queues q).stage.opens = none ∨ ∃ db, (s.queues q).stage = .dropping db := .inl (by rw [hs]; rfl)
  have hdetach : ∀ {a : ActiveReplica} {u : SyncQueue}, (s.queues q).active = some a → u.line = (s.queues q).line →
      u.abandoned = (s.queues q).abandoned → RunsOn f q s (s.setQueue q (u.detach a)) := by
    intro a u ha hl hb
    exact .quiet hb (.early hc he rfl hl (.inr ⟨a, _, ha, rfl, .detached a⟩) (fun h => nomatch h) hwipe) ⟨nofun, nofun⟩ (.inr (not_dropping hs nofun)) nofun
  unfold ReplicaStore.stopped
  dsimp only
  split
  · next identity hcom ha => exact openReplica_runs hc hcom he rfl ha rfl (.inr (.inl ha))
  · next identity a hcom ha =>
    split
    · next hid =>
      subst hid
      unfold SyncQueue.awaitDisconnect
      split
      · next hne =>
        have hnot : ¬c.Moves s.generation := by
          unfold ReplicaCall.Moves
          rw [hcom]
          exact hne
        exact .quiet rfl (.settle hc rfl rfl (.inl rfl) (fun _ => .inl hnot) hnd hop) ⟨nofun, nofun⟩ (.inr (not_dropping hs nofun)) nofun
      · next hg => exact .quiet rfl (.reached hc hcom (not_not.1 hg) hs rfl rfl ha ha) ⟨nofun, nofun⟩ (.inr (not_dropping hs nofun)) nofun
    · exact hdetach ha rfl rfl
  · next hcom ha =>
    have hnot : ¬c.Moves s.generation := by
      unfold ReplicaCall.Moves
      rw [hcom]
      exact id
    exact .quiet rfl (.settle hc rfl rfl (.inl rfl) (fun _ => .inl hnot) hnd hop) ⟨nofun, nofun⟩ (.inr (not_dropping hs nofun)) nofun
  · next a hcom ha => exact hdetach ha rfl rfl
  · next hcom ha => exact .quiet rfl (.settle hc rfl rfl (.inl rfl) (fun _ => .inr ha) hnd hop) ⟨nofun, nofun⟩ (.inr (not_dropping hs nofun)) nofun
  · next a hcom ha => exact hdetach ha rfl rfl
  · next names hcom ha => exact .quiet rfl (.discarding hc hcom (.inl he) rfl rfl ha (.inr (.inl ha))) ⟨nofun, nofun⟩ (.inr (not_dropping hs nofun)) nofun
  · next names a hcom ha =>
    refine .quiet rfl (.early hc he rfl rfl (.inr ⟨a, _, ha, rfl, ?_⟩) (fun _ => ⟨names, hcom⟩) hwipe) ⟨nofun, nofun⟩ (.inr (not_dropping hs nofun)) nofun
    exact ⟨rfl, rfl, rfl, fun _ => rfl⟩

theorem left_runs (h : (s.queues q).Awaits c .leaving) : RunsOn f q s (s.left q c) := by
  obtain ⟨hc, hs⟩ := h
  have he : (s.queues q).stage.early = true := by rw [hs]; rfl
  unfold ReplicaStore.left
  split
  · next hcom =>
    have hnot : ¬c.Moves s.generation := by
      unfold ReplicaCall.Moves
      rw [hcom]
      exact id
    exact .quiet rfl (.settle hc rfl rfl (.inl rfl) (fun _ => .inl hnot) (not_discarding hs (by decide)) (.inl (by rw [hs]; rfl))) ⟨nofun, nofun⟩ (.inr (not_dropping hs nofun)) nofun
  · exact .quiet rfl (.early hc he rfl rfl (.inl rfl) (fun h => nomatch h) fun _ => .inl rfl) ⟨nofun, nofun⟩ (.inr (not_dropping hs nofun)) nofun

theorem shutActive_runs (h : (s.queues q).Awaits c .closing) (ha : (s.queues q).active = some a) :
    RunsOn f q s (s.shutActive q a) :=
  .effect (t := s.shut a.db) rfl rfl
    (.early h.1 (by rw [h.2]; rfl) rfl rfl (.inl rfl) (fun h => nomatch h) fun _ => .inr rfl)
    (.shut (.inl ⟨rfl, rfl, a, ha, rfl⟩) rfl rfl rfl rfl rfl) rfl rfl rfl rfl

theorem released_runs {throws : Bool} (hc : (s.queues q).line.head? = some c) (he : (s.queues q).stage.early = true)
    (hr : (s.queues q).stage = .closed ∨ f) : RunsOn f q s (s.released q c a throws) := by
  have hr' : (s.queues q).stage = .closed ∨ (s.queues q).active = none ∨ f := hr.imp id .inr
  unfold ReplicaStore.released
  dsimp only
  split
  · next identity hcom => exact openReplica_runs hc hcom he rfl rfl rfl hr'
  · next names hcom =>
    exact .quiet rfl (.discarding hc hcom (.inl he) rfl rfl rfl hr') ⟨nofun, nofun⟩ (.inr (not_dropping_early he)) nofun
  · exact .quiet rfl (.freed hc rfl rfl he rfl hr') ⟨nofun, nofun⟩ (.inr (not_dropping_early he)) nofun

theorem cleared_runs {wiped : Bool} (hu : QueueKept (s.queues q)) (h : (s.queues q).Awaits c .clearing) :
    RunsOn f q s (s.cleared q a wiped) := by
  obtain ⟨names, hr⟩ := hu.clearing h.2
  have hmove : QueueMove f s.generation (s.queues q) ((s.queues q).toStage .closing) :=
    .early h.1 (by rw [h.2]; rfl) rfl rfl (.inl rfl) (fun h => nomatch h) fun _ => .inl rfl
  unfold ReplicaStore.cleared
  split
  · exact .effect (t := s.setFile a.filename none) rfl rfl hmove (.wiped hr rfl (.inl rfl) rfl rfl rfl rfl nofun) rfl rfl rfl rfl
  · exact .quiet rfl hmove ⟨nofun, nofun⟩ (.inr (not_dropping h.2 nofun)) nofun

theorem removed_runs {name : String} {names : List String} {gone : Bool} (hu : QueueKept (s.queues q))
    (h : (s.queues q).Awaits c (.removing (name :: names))) : RunsOn f q s (s.removed q name names gone) := by
  obtain ⟨⟨names', hr⟩, ha⟩ := hu.removing _ h.2
  have hmove : QueueMove f s.generation (s.queues q) ((s.queues q).toStage (.removing names)) :=
    .discarding h.1 (hr.eq h.1) (.inr ⟨_, h.2⟩) rfl rfl ha (.inr (.inl ha))
  unfold ReplicaStore.removed
  split
  · exact .effect (t := s.setFile name none) rfl rfl hmove (.wiped hr rfl (.inr ha) rfl rfl rfl rfl nofun) rfl rfl rfl rfl
  · exact .quiet rfl hmove ⟨nofun, nofun⟩ (.inr (not_dropping h.2 nofun)) nofun

/-- A call ends at a stage past the replica it was called with. -/
theorem settle_move {stage : ReplicaStage} (h : (s.queues q).Awaits c stage) (he : stage.early = false)
    (ho : stage.opens = none ∨ ∃ db, stage = .dropping db) : QueueMove f g (s.queues q) (s.queues q).settle := by
  refine .settle h.1 rfl rfl (.inl rfl) (fun he' => ?_) (not_discarding h.2 ?_) (by rw [h.2]; exact ho)
  · rw [h.2, he] at he'
    cases he'
  · refine ⟨?_, ?_, ?_⟩ <;>
      · rintro rfl
        cases he

theorem settle_runs {stage : ReplicaStage} (h : (s.queues q).Awaits c stage) (he : stage.early = false)
    (ho : stage.opens = none) : RunsOn f q s (s.setQueue q (s.queues q).settle) := by
  refine .quiet rfl (settle_move h he (.inl ho)) ⟨nofun, nofun⟩ (.inr (not_dropping h.2 fun db hd => ?_)) nofun
  rw [hd] at ho
  cases ho

theorem dropped_runs {db : Nat} (h : (s.queues q).Awaits c (.dropping db)) : RunsOn f q s (s.dropped q db) :=
  .effect (t := s.shut db) rfl rfl (settle_move h rfl (.inr ⟨db, rfl⟩)) (.shut (.inr ⟨h.2, rfl⟩) rfl rfl rfl rfl rfl) rfl rfl rfl rfl

theorem inited_runs {db : Nat} (h : (s.queues q).Awaits c (.opening db)) : RunsOn f q s (s.inited q db) := by
  have ho : (s.queues q).stage.opens = some db := by rw [h.2]; rfl
  refine .quiet rfl (@QueueMove.opening _ _ _ c _ db h.1 ho ?_ rfl rfl) ⟨?_, fun db' owner => ?_⟩
    (.inr (not_dropping h.2 nofun)) fun db' h' => ?_
  · show (if (s.queues q).abandoned then ReplicaStage.dropping db else .claiming db).opens = some db
    split <;> rfl
  · show (if (s.queues q).abandoned then ReplicaStage.dropping db else .claiming db) ≠ .closed
    split <;> exact fun h => nomatch h
  · show (if (s.queues q).abandoned then ReplicaStage.dropping db else .claiming db) ≠ .claimed db' owner
    split <;> exact fun h => nomatch h
  · have h'' : (if (s.queues q).abandoned then ReplicaStage.dropping db else .claiming db).opens = some db' := h'
    split at h'' <;> exact ho.trans h''

theorem claim_runs {db : Nat} {identity : String} {empty : Bool} (h : (s.queues q).Awaits c (.claiming db))
    (hcom : c.command = .activate identity) : RunsOn f q s (s.claim q db identity empty) := by
  have hr : (s.queues q).Runs (.activate identity) := ⟨c, h.1, hcom⟩
  have ho : (s.queues q).stage.opens = some db := by rw [h.2]; rfl
  have hmove : ∀ {stage : ReplicaStage}, stage.opens = some db →
      QueueMove f s.generation (s.queues q) ((s.queues q).toStage stage) := fun ho' =>
    .opening h.1 ho ho' rfl rfl
  unfold ReplicaStore.claim
  dsimp only
  split
  · next owner hf => exact .effect rfl rfl (hmove rfl) (.owned hr rfl rfl ho (not_dropping h.2 nofun) hf (fun _ _ h => h) rfl rfl rfl rfl) rfl rfl rfl rfl
  · next hf =>
    split
    · refine .effect (t := s.setFile (replicaFilename identity) (some identity)) rfl rfl (hmove rfl)
        (.owned hr rfl rfl ho (not_dropping h.2 nofun) (Function.update_self ..) (fun name v hv => ?_) rfl rfl rfl rfl) rfl rfl rfl rfl
      have hne : name ≠ replicaFilename identity := by
        rintro rfl
        rw [hf] at hv
        cases hv
      exact (Function.update_of_ne hne ..).trans hv
    · exact .quiet rfl (hmove rfl) ⟨nofun, nofun⟩ (.inr (not_dropping h.2 nofun)) fun db' h' => ho.trans h'

theorem claimed_runs {db : Nat} {identity owner : String} {shared : Bool} (h : (s.queues q).Awaits c (.claimed db owner))
    (hcom : c.command = .activate identity) : RunsOn f q s (s.claimed q c identity db owner shared) := by
  have ho : (s.queues q).stage.opens = some db := by rw [h.2]; rfl
  unfold ReplicaStore.claimed
  dsimp only
  split
  · exact .quiet rfl (.opening h.1 ho rfl rfl rfl) ⟨nofun, nofun⟩ (.inr (not_dropping h.2 nofun)) fun db' h' => ho.trans h'
  · next hno =>
    obtain ⟨heq, hb⟩ := not_or.1 hno
    obtain rfl := not_not.1 heq
    unfold SyncQueue.awaitDisconnect
    split
    · exact .quiet rfl (.activated h.1 hcom h.2 (Bool.eq_false_of_not_eq_true hb) rfl rfl (.inr ⟨rfl, rfl⟩)) ⟨nofun, nofun⟩ (.inr (not_dropping h.2 nofun)) nofun
    · exact .quiet rfl (.activated h.1 hcom h.2 (Bool.eq_false_of_not_eq_true hb) rfl rfl (.inl ⟨rfl, rfl⟩)) ⟨nofun, nofun⟩ (.inr (not_dropping h.2 nofun)) nofun

theorem disconnected_runs (h : (s.queues q).Awaits c .disconnecting) : RunsOn f q s (s.disconnected q c) := by
  unfold ReplicaStore.disconnected
  dsimp only
  split
  · exact settle_runs h rfl rfl
  · next hg => exact .quiet rfl (.subscribes h.1 (not_not.1 hg) h.2 rfl rfl rfl) ⟨nofun, nofun⟩ (.inr (not_dropping h.2 nofun)) nofun

theorem connect_runs {identity : String} (h : (s.queues q).Awaits c .subscribing) (hcom : c.command = .activate identity)
    (ha : (s.queues q).active = some a) : RunsOn f q s (s.connect q identity a) := by
  refine ⟨⟨_, rfl, rfl, .connected h.1 h.2 rfl rfl ha rfl rfl rfl rfl, ?_⟩, rfl, rfl, rfl, rfl⟩
  exact .connected ⟨c, h.1, hcom⟩ h.2 ha rfl rfl rfl rfl rfl rfl

theorem fails_runs {stage : ReplicaStage} (hf : (s.queues q).windsDown → f) (h : (s.queues q).Awaits c stage)
    (hs : stage ∈ [.stopping, .leaving, .closing, .closed, .disconnecting, .subscribing] ∨
      (∃ names, stage = .removing names) ∨ ∃ db, stage = .dropping db)
    (hd : ∀ names, c.command = .discard names → stage ≠ .closing ∧ stage ≠ .closed) :
    RunsOn f q s (s.setQueue q (s.queues q).settle) := by
  have hstop : stage = .stopping ∨ stage = .leaving → RunsOn f q s (s.setQueue q (s.queues q).settle) := by
    intro hst
    have hnd : ¬(s.queues q).Discarding := not_discarding h.2 (by obtain rfl | rfl := hst <;> decide)
    by_cases hp : c.command = .pause
    · have hnot : ¬c.Moves s.generation := by
        unfold ReplicaCall.Moves
        rw [hp]
        exact id
      refine .quiet rfl (.settle h.1 rfl rfl (.inl rfl) (fun _ => .inl hnot) hnd (.inl ?_)) ⟨nofun, nofun⟩
        (.inr (not_dropping h.2 (by obtain rfl | rfl := hst <;> exact nofun))) nofun
      rw [h.2]
      obtain rfl | rfl := hst <;> rfl
    · have hw : (s.queues q).windsDown := by
        refine .inl ⟨?_, fun c' hc' => ?_⟩
        · rw [h.2]
          obtain rfl | rfl := hst <;> simp
        · obtain rfl := Option.some.inj (h.1.symm.trans hc')
          exact hp
      exact .quiet rfl (.lost h.1 rfl rfl (.inl rfl) hw hnd (hf hw)) ⟨nofun, nofun⟩ (.inl (hf hw)) nofun
  have hclose : stage = .closing ∨ stage = .closed → RunsOn f q s (s.setQueue q (s.queues q).settle) := by
    intro hst
    have hw : (s.queues q).windsDown := .inr (.inl (by rw [h.2]; obtain rfl | rfl := hst <;> simp))
    refine .quiet rfl (.lost h.1 rfl rfl (.inl rfl) hw (fun hdis => ?_) (hf hw)) ⟨nofun, nofun⟩ (.inl (hf hw)) nofun
    obtain ⟨⟨names, hr⟩, -⟩ := hdis
    have hne := hd names (hr.eq h.1)
    exact hst.elim hne.1 hne.2
  obtain hs | ⟨names, rfl⟩ | ⟨db, rfl⟩ := hs
  · simp only [List.mem_cons, List.not_mem_nil, or_false] at hs
    obtain rfl | rfl | rfl | rfl | rfl | rfl := hs
    · exact hstop (.inl rfl)
    · exact hstop (.inr rfl)
    · exact hclose (.inl rfl)
    · exact hclose (.inr rfl)
    · exact settle_runs h rfl rfl
    · exact settle_runs h rfl rfl
  · exact settle_runs h rfl rfl
  · have hw : (s.queues q).windsDown := .inr (.inr ⟨db, h.2⟩)
    exact .quiet rfl (.lost h.1 rfl rfl (.inl rfl) hw (not_discarding h.2 ⟨nofun, nofun, nofun⟩) (hf hw)) ⟨nofun, nofun⟩
      (.inl (hf hw)) nofun

theorem unopened_runs {stage : ReplicaStage} {db : Nat} (h : (s.queues q).Awaits c stage)
    (hs : stage = .opening db ∨ stage = .claiming db ∨ ∃ owner, stage = .claimed db owner) :
    RunsOn f q s (s.setQueue q ((s.queues q).toStage (.dropping db))) := by
  have ho : (s.queues q).stage.opens = some db := by
    rw [h.2]
    obtain rfl | rfl | ⟨owner, rfl⟩ := hs <;> rfl
  refine .quiet rfl (@QueueMove.opening _ _ _ c _ db h.1 ho rfl rfl rfl) ⟨nofun, nofun⟩ (.inr (not_dropping h.2 fun db' hd => ?_))
    fun db' h' => ho.trans h'
  obtain rfl | rfl | ⟨owner, rfl⟩ := hs <;> cases hd

/-- Every segment of a call, and every failure, is a move of its queue. -/
theorem ReplicaStep.runs {action : ReplicaAction} (hs : ReplicaStep s action s') (ha : action = .run q ∨ action = .fail q)
    (hk : QueueKept (s.queues q)) : RunsOn (action = .fail q ∧ (s.queues q).windsDown) q s s' := by
  have hrun : ∀ {q' : Nat}, ReplicaAction.run q' = .run q ∨ ReplicaAction.run q' = .fail q → q' = q := fun h =>
    h.elim ReplicaAction.run.inj fun h => nomatch h
  have hfail : ∀ {q' : Nat}, ReplicaAction.fail q' = .run q ∨ ReplicaAction.fail q' = .fail q → q' = q := fun h =>
    h.elim (fun h => nomatch h) ReplicaAction.fail.inj
  cases hs with
  | begin h => obtain rfl := hrun ha; exact begin_runs h
  | stopped h => obtain rfl := hrun ha; exact stopped_runs h
  | left h => obtain rfl := hrun ha; exact left_runs h
  | shutActive h hact => obtain rfl := hrun ha; exact shutActive_runs h hact
  | released h _ => obtain rfl := hrun ha; exact released_runs h.1 (by rw [h.2]; rfl) (.inl h.2)
  | cleared h _ => obtain rfl := hrun ha; exact cleared_runs hk h
  | removed h => obtain rfl := hrun ha; exact removed_runs hk h
  | discarded h => obtain rfl := hrun ha; exact settle_runs h rfl rfl
  | inited h => obtain rfl := hrun ha; exact inited_runs h
  | claim h hc => obtain rfl := hrun ha; exact claim_runs h hc
  | claimed h hc => obtain rfl := hrun ha; exact claimed_runs h hc
  | dropped h => obtain rfl := hrun ha; exact dropped_runs h
  | disconnected h => obtain rfl := hrun ha; exact disconnected_runs h
  | connect h hc hact => obtain rfl := hrun ha; exact connect_runs h hc hact
  | fails h hst hd => obtain rfl := hfail ha; exact fails_runs (fun hw => ⟨rfl, hw⟩) h hst hd
  | unclosed h _ _ => obtain rfl := hfail ha; exact released_runs h.1 (by rw [h.2]; rfl) (.inr ⟨rfl, .inr (.inl (by rw [h.2]; simp))⟩)
  | unopened h hst => obtain rfl := hfail ha; exact unopened_runs h hst
  | _ => exact ha.elim (fun h => nomatch h) fun h => nomatch h

/-! ## Queues given up -/

/-- The queues before the current one are those given up, and only its calls can be of the newest
generation. -/
structure GivenKept (s : ReplicaStore) : Prop where
  queues : QueuesKept s
  abandoned : ∀ q, (s.queues q).abandoned = true ↔ q < s.current
  fresh : ∀ q, s.current < q → s.queues q = emptyQueue
  calls : ∀ q, ∀ c ∈ (s.queues q).line, c.generation ≤ s.generation ∧ (c.generation = s.generation → q = s.current)

theorem QueueMove.line_subset (h : QueueMove f g u u') : ∀ c ∈ u'.line, c ∈ u.line := by
  have hsame : u'.line = u.line → ∀ c ∈ u'.line, c ∈ u.line := fun hl c hc => hl ▸ hc
  have htail : u'.line = u.line.tail → ∀ c ∈ u'.line, c ∈ u.line := fun hl c hc => List.mem_of_mem_tail (hl ▸ hc)
  cases h with
  | early hc he he' hl ha hs hn => exact hsame hl
  | settle hc hl hs ha hm hd ho => exact htail hl
  | lost hc hl hs ha hw hd hf => exact htail hl
  | freed hc hl hs he ha hr => exact htail hl
  | opened hc hcom he hl hs ha hr => exact hsame hl
  | discarding hc hcom he hl hs ha hr => exact hsame hl
  | opening hc ho ho' hl ha => exact hsame hl
  | activated hc hcom ho hb ha hn hs => exact hs.elim (fun hs => hsame hs.1) fun hs => htail hs.1
  | reached hc hcom hg he hl hs ha ha' => exact hsame hl
  | subscribes hc hg he hl hs ha => exact hsame hl
  | connected hc he hl hs ha ha' hdb hi hf => exact htail hl

theorem GivenKept.runs (h : GivenKept s) (hr : RunsOn f q s s') : GivenKept s' := by
  obtain ⟨⟨u', hq, hb, hm, -⟩, hg, hc, -, -⟩ := hr
  have hle : q ≤ s.current := by
    by_contra hlt
    obtain ⟨c, hc'⟩ := hm.head
    rw [h.fresh q (by omega)] at hc'
    cases hc'
  have hcase : ∀ q', s'.queues q' = s.queues q' ∨ (q' = q ∧ s'.queues q' = u') := by
    intro q'
    rw [hq]
    by_cases he : q' = q
    · subst he
      exact .inr ⟨rfl, Function.update_self ..⟩
    · exact .inl (Function.update_of_ne he ..)
  refine ⟨h.queues.update (hm.kept (h.queues q)) hq, fun q' => ?_, fun q' hlt => ?_, fun q' c hc' => ?_⟩
  · rw [hc]
    obtain he | ⟨rfl, he⟩ := hcase q'
    · rw [he]
      exact h.abandoned q'
    · rw [he, hb]
      exact h.abandoned q'
  · rw [hc] at hlt
    rw [hq, Function.update_of_ne (by omega)]
    exact h.fresh q' hlt
  · rw [hg, hc]
    obtain he | ⟨rfl, he⟩ := hcase q'
    · exact h.calls q' c (he ▸ hc')
    · rw [he] at hc'
      exact h.calls q' c (hm.line_subset c hc')

/-- A call joins the queue of the controller, at a new generation. -/
theorem GivenKept.serialize (h : GivenKept s) (command : ReplicaCommand) : GivenKept (s.serialize command) := by
  have hother : ∀ {q'}, q' ≠ s.current → (s.serialize command).queues q' = s.queues q' := fun hne =>
    Function.update_of_ne hne ..
  have hown : (s.serialize command).queues s.current =
      { s.queues s.current with line := (s.queues s.current).line ++ [⟨command, s.generation + 1⟩] } := Function.update_self ..
  refine ⟨h.queues.update ((h.queues s.current).enqueue _) rfl, fun q' => ?_, fun q' hlt => ?_, fun q' c hc' => ?_⟩
  · by_cases he : q' = s.current
    · subst he
      rw [hown]
      exact h.abandoned s.current
    · rw [hother he]
      exact h.abandoned q'
  · rw [hother (by have : s.current < q' := hlt; omega)]
    exact h.fresh q' hlt
  · show c.generation ≤ s.generation + 1 ∧ (c.generation = s.generation + 1 → q' = s.current)
    by_cases he : q' = s.current
    · subst he
      rw [hown] at hc'
      obtain hc' | hc' := List.mem_append.1 hc'
      · have hle := (h.calls _ c hc').1
        exact ⟨by omega, fun _ => rfl⟩
      · obtain rfl := List.mem_singleton.1 hc'
        exact ⟨le_refl _, fun _ => rfl⟩
    · rw [hother he] at hc'
      have hle := (h.calls _ c hc').1
      exact ⟨by omega, fun h' => by omega⟩

/-- The queue an abandon gives up. -/
def SyncQueue.givenUp (u : SyncQueue) : SyncQueue :=
  { u with abandoned := true, active := u.active.map fun a : ActiveReplica => { a with joined := false } }

theorem ReplicaStore.abandon_queues (s : ReplicaStore) :
    s.abandon.queues = Function.update (Function.update s.queues s.current (s.queues s.current).givenUp) (s.current + 1) emptyQueue := by
  unfold ReplicaStore.abandon
  dsimp only
  split <;> rfl

theorem ReplicaStore.abandon_fields (s : ReplicaStore) :
    s.abandon.generation = s.generation + 1 ∧ s.abandon.current = s.current + 1 ∧ s.abandon.last = none ∧
      s.abandon.takeOvers = s.takeOvers ∧ s.abandon.files = s.files ∧ s.abandon.starts = s.starts ∧
      s.abandon.resolved = s.resolved ∧ s.abandon.opened = s.opened := by
  unfold ReplicaStore.abandon
  dsimp only
  split <;> exact ⟨rfl, rfl, rfl, rfl, rfl, rfl, rfl, rfl⟩

theorem ReplicaStore.abandon_current (s : ReplicaStore) : s.abandon.queues s.abandon.current = emptyQueue := by
  rw [s.abandon_queues, s.abandon_fields.2.1, Function.update_self]

theorem ReplicaStore.abandon_given (s : ReplicaStore) : s.abandon.queues s.current = (s.queues s.current).givenUp := by
  rw [s.abandon_queues, Function.update_of_ne (by omega), Function.update_self]

theorem ReplicaStore.abandon_other (s : ReplicaStore) {q : Nat} (h : q ≠ s.current) (h' : q ≠ s.current + 1) :
    s.abandon.queues q = s.queues q := by
  rw [s.abandon_queues, Function.update_of_ne h', Function.update_of_ne h]

theorem QueueKept.givenUp (h : QueueKept u) : QueueKept u.givenUp := by
  have hnone : u.active = none → u.givenUp.active = none := fun hn => by
    show u.active.map _ = none
    rw [hn]
    rfl
  refine
    { idle := h.idle
      opening := fun ho => ⟨(h.opening ho).1, hnone (h.opening ho).2⟩
      connecting := fun hs => ?_
      removing := fun names hs => ⟨(h.removing names hs).1, hnone (h.removing names hs).2⟩
      clearing := h.clearing
      named := fun a ha => ?_ }
  · obtain ⟨a, ha, hr⟩ := h.connecting hs
    refine ⟨{ a with joined := false }, ?_, hr⟩
    show u.active.map _ = _
    rw [ha]
    rfl
  · obtain ⟨b, hb, rfl⟩ := Option.map_eq_some_iff.1 (show u.active.map _ = some a from ha)
    exact h.named b hb

theorem GivenKept.abandon (h : GivenKept s) : GivenKept s.abandon := by
  obtain ⟨hgen, hcur, -⟩ := s.abandon_fields
  have hcase : ∀ q', (q' = s.current ∧ s.abandon.queues q' = (s.queues s.current).givenUp) ∨
      (q' = s.current + 1 ∧ s.abandon.queues q' = emptyQueue) ∨
      (q' ≠ s.current ∧ q' ≠ s.current + 1 ∧ s.abandon.queues q' = s.queues q') := by
    intro q'
    by_cases he : q' = s.current
    · exact .inl ⟨he, he ▸ s.abandon_given⟩
    · by_cases he' : q' = s.current + 1
      · exact .inr (.inl ⟨he', by rw [he', ← hcur]; exact s.abandon_current⟩)
      · exact .inr (.inr ⟨he, he', s.abandon_other he he'⟩)
  refine ⟨fun q' => ?_, fun q' => ?_, fun q' hlt => ?_, fun q' c hc => ?_⟩
  · obtain ⟨-, he⟩ | ⟨-, he⟩ | ⟨-, -, he⟩ := hcase q'
    · rw [he]
      exact (h.queues s.current).givenUp
    · rw [he]
      exact .empty
    · rw [he]
      exact h.queues q'
  · rw [hcur]
    obtain ⟨rfl, he⟩ | ⟨rfl, he⟩ | ⟨hne, hne', he⟩ := hcase q'
    · rw [he]
      exact ⟨fun _ => by omega, fun _ => rfl⟩
    · rw [he]
      exact ⟨fun hf => (Bool.false_ne_true hf).elim, fun hlt => by omega⟩
    · rw [he, h.abandoned q']
      omega
  · rw [hcur] at hlt
    rw [s.abandon_other (by omega) (by omega)]
    exact h.fresh q' (by omega)
  · rw [hgen, hcur]
    obtain ⟨rfl, he⟩ | ⟨rfl, he⟩ | ⟨hne, hne', he⟩ := hcase q'
    · rw [he] at hc
      have hle := (h.calls _ c hc).1
      exact ⟨by omega, fun h' => by omega⟩
    · rw [he] at hc
      cases hc
    · rw [he] at hc
      have hle := (h.calls _ c hc).1
      exact ⟨by omega, fun h' => by omega⟩

/-- What a store keeps of its queues and its calls, whatever else changes. -/
theorem GivenKept.of_same (h : GivenKept s) (hq : s'.queues = s.queues) (hg : s'.generation = s.generation)
    (hc : s'.current = s.current) : GivenKept s' := by
  obtain ⟨h₁, h₂, h₃, h₄⟩ := h
  refine ⟨fun q => ?_, fun q => ?_, fun q hlt => ?_, fun q c hcall => ?_⟩
  · rw [hq]
    exact h₁ q
  · rw [hq, hc]
    exact h₂ q
  · rw [hq]
    exact h₃ q (hc ▸ hlt)
  · rw [hg, hc]
    exact h₄ q c (hq ▸ hcall)

theorem ReplicaStore.reconnect_fields (s : ReplicaStore) (q db : Nat) :
    (s.reconnect q db).queues = s.queues ∧ (s.reconnect q db).generation = s.generation ∧
      (s.reconnect q db).current = s.current ∧ (s.reconnect q db).last = s.last ∧
      (s.reconnect q db).files = s.files ∧ (s.reconnect q db).replicas = s.replicas ∧
      (s.reconnect q db).opened = s.opened ∧ (s.reconnect q db).resolved = s.resolved ∧
      (s.reconnect q db).takeOvers = s.takeOvers.erase (q, db) := by
  unfold ReplicaStore.reconnect
  dsimp only
  split <;> exact ⟨rfl, rfl, rfl, rfl, rfl, rfl, rfl, rfl, rfl⟩

theorem ReplicaStep.givenKept {action : ReplicaAction} (hs : ReplicaStep s action s') (h : GivenKept s) : GivenKept s' := by
  by_cases hrun : ∃ q, action = .run q ∨ action = .fail q
  · obtain ⟨q, ha⟩ := hrun
    exact h.runs (hs.runs ha (h.queues q))
  · cases hs with
    | activate => exact (h.serialize _).of_same rfl rfl rfl
    | pause => exact h.serialize _
    | close => exact (h.serialize _).of_same rfl rfl rfl
    | discard => exact (h.serialize _).of_same rfl rfl rfl
    | abandon => exact h.abandon
    | takeOver ha hj => exact h.of_same rfl rfl rfl
    | @reconnect q db hm =>
      obtain ⟨hq, hg, hc, -⟩ := s.reconnect_fields q db
      exact h.of_same hq hg hc
    | shut hc => exact h.of_same rfl rfl rfl
    | shutFails hc => exact h.of_same rfl rfl rfl
    | _ => exact absurd ⟨_, by first | exact .inl rfl | exact .inr rfl⟩ hrun

end ClientBridge
