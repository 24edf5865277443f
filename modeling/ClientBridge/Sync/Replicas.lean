import ClientBridge.Library.Runs

/-!
# The replica controller

A device keeps one replica a signed-in account.  Calls of the controller wait for each other in
a queue; each runs in segments between the promises it awaits, any of which may fail or settle
late.  `abandon` alone does not wait: it gives the queue up and starts another, while the call
that hangs on the old one may still go on.
-/

namespace ClientBridge

open Runs

/-! ## Names -/

/-- What `charCodeAt(0)` reads of a code point. -/
def charCode (c : Char) : UInt32 :=
  if c.val < 0x10000 then c.val else (0xd800 : UInt32) + ((c.val - 0x10000) >>> 10)

def hexText (n : UInt32) : String := String.ofList (Nat.toDigits 16 n.toNat)

/-- `filename`: the file of an identity. -/
def replicaFilename (identity : String) : String :=
  let hashes : UInt32 × UInt32 := identity.toList.foldl (fun h c =>
    ((h.1 ^^^ charCode c) * 0x01000193, (h.2 ^^^ charCode c) * 0x85ebca6b)) (0x811c9dc5, 0x9e3779b9)
  "clientbridge-" ++ hexText hashes.1 ++ "-" ++ hexText hashes.2 ++ ".db"

/-! ## Queues -/

/-- A replica that was opened; `closing` while a close nobody waits for is under way. -/
structure Replica where
  identity : String
  isOpen : Bool
  closing : Bool
  deriving DecidableEq, Repr

/-- The replica a queue holds; `joined` while the other tabs are listened to. -/
structure ActiveReplica where
  db : Nat
  identity : String
  filename : String
  shared : Bool
  connector : Bool
  stopListening : Bool
  joined : Bool
  deriving DecidableEq, Repr

inductive ReplicaCommand where
  | activate (identity : String)
  | pause
  | close
  | discard (names : List String)
  deriving DecidableEq, Repr

/-- A call in a queue, with the generation it was made at. -/
structure ReplicaCall where
  command : ReplicaCommand
  generation : Nat
  deriving DecidableEq, Repr

/-- What the first call of a queue awaits. -/
inductive ReplicaStage where
  /-- Its turn. -/
  | waiting
  /-- `stopUploads`. -/
  | stopping
  /-- The `disconnect` of the replica it leaves. -/
  | leaving
  | closing
  | closed
  /-- `disconnectAndClear`. -/
  | clearing
  | removing (names : List String)
  /-- `init`. -/
  | opening (db : Nat)
  | claiming (db : Nat)
  | claimed (db : Nat) (owner : String)
  /-- The `close` of a replica that could not be opened. -/
  | dropping (db : Nat)
  /-- The `disconnect` before it connects anew. -/
  | disconnecting
  /-- `subscribeHistory`. -/
  | subscribing
  deriving DecidableEq, Repr

/-- `Queue`; what stops the uploads and the upkeep stands for the replica they run on. -/
structure SyncQueue where
  line : List ReplicaCall
  stage : ReplicaStage
  abandoned : Bool
  stopUploads : Option Nat
  history : Option Nat
  stopHistory : Option Nat
  active : Option ActiveReplica
  deriving DecidableEq, Repr

def emptyQueue : SyncQueue where
  line := []
  stage := .waiting
  abandoned := false
  stopUploads := none
  history := none
  stopHistory := none
  active := none

/-- A connect, with the uploads and the upkeep, and whether its queue had been given up. -/
structure SyncStart where
  queue : Nat
  abandoned : Bool
  deriving DecidableEq, Repr

/-- An activate that resolved, and the `sync.identity` its replica had. -/
structure ResolvedReplica where
  identity : String
  stored : Option String
  deriving DecidableEq, Repr

/-- The controller, the replicas opened so far, and the `sync.identity` stored in each file.  What
is not stored: the take-overs under way, the account of the last activate unless a close, a discard
or an abandon followed it, the connects, and the activates that resolved. -/
structure ReplicaStore where
  generation : Nat
  current : Nat
  queues : Nat → SyncQueue
  replicas : Nat → Replica
  opened : Nat
  files : String → Option String
  takeOvers : List (Nat × Nat)
  last : Option String
  starts : List SyncStart
  resolved : List ResolvedReplica

/-- A controller nobody has called, on a device with any files. -/
def freshController (files : String → Option String) : ReplicaStore where
  generation := 0
  current := 0
  queues _ := emptyQueue
  replicas _ := ⟨"", false, false⟩
  opened := 0
  files := files
  takeOvers := []
  last := none
  starts := []
  resolved := []

namespace ReplicaStore

def setQueue (s : ReplicaStore) (q : Nat) (u : SyncQueue) : ReplicaStore :=
  { s with queues := Function.update s.queues q u }

def setReplica (s : ReplicaStore) (db : Nat) (r : Replica) : ReplicaStore :=
  { s with replicas := Function.update s.replicas db r }

def setFile (s : ReplicaStore) (name : String) (identity : Option String) : ReplicaStore :=
  { s with files := Function.update s.files name identity }

/-- A replica is closed. -/
def shut (s : ReplicaStore) (db : Nat) : ReplicaStore :=
  s.setReplica db { s.replicas db with isOpen := false, closing := false }

end ReplicaStore

namespace SyncQueue

def toStage (u : SyncQueue) (stage : ReplicaStage) : SyncQueue := { u with stage := stage }

/-- The first call is over, whether it resolved or not. -/
def settle (u : SyncQueue) : SyncQueue := { u with line := u.line.tail, stage := .waiting }

def setActive (u : SyncQueue) (active : Option ActiveReplica) : SyncQueue := { u with active := active }

def uploadsStopped (u : SyncQueue) : SyncQueue := { u with stopUploads := none }

def unsubscribed (u : SyncQueue) : SyncQueue := { u with history := none }

/-- `detach` up to its first promise. -/
def detach (u : SyncQueue) (a : ActiveReplica) : SyncQueue :=
  (u.setActive (some { a with stopListening := false, joined := false })).toStage .leaving

/-- An activate whose replica is open goes on unless another call superseded it. -/
def awaitDisconnect (u : SyncQueue) (c : ReplicaCall) (generation : Nat) : SyncQueue :=
  if c.generation ≠ generation then u.settle else u.toStage .disconnecting

end SyncQueue

namespace ReplicaStore

/-! ## Calls -/

/-- `serialize`. -/
def serialize (s : ReplicaStore) (command : ReplicaCommand) : ReplicaStore :=
  { s with generation := s.generation + 1 }.setQueue s.current
    { s.queues s.current with line := (s.queues s.current).line ++ [ReplicaCall.mk command (s.generation + 1)] }

def activate (s : ReplicaStore) (identity : String) : ReplicaStore :=
  { s.serialize (.activate identity) with last := some identity }

def pause (s : ReplicaStore) : ReplicaStore := s.serialize .pause

def close (s : ReplicaStore) : ReplicaStore := { s.serialize .close with last := none }

/-- The files a discard names: that of the identity it was given and that of the open replica. -/
def discardNames (s : ReplicaStore) (identity : Option String) : List String :=
  let given := identity.toList.map replicaFilename
  match (s.queues s.current).active with
  | none => given
  | some a => given.insert a.filename

def discard (s : ReplicaStore) (identity : Option String) : ReplicaStore :=
  { s.serialize (.discard (s.discardNames identity)) with last := none }

/-- The queue is given up, and its replica is closed without waiting for it. -/
def abandon (s : ReplicaStore) : ReplicaStore :=
  let u := s.queues s.current
  let given := { s with generation := s.generation + 1, current := s.current + 1, last := none }.setQueue s.current
    { u with abandoned := true, active := u.active.map fun a : ActiveReplica => { a with joined := false } }
  let fresh := given.setQueue (s.current + 1) emptyQueue
  match u.active with
  | none => fresh
  | some a => fresh.setReplica a.db { s.replicas a.db with closing := (s.replicas a.db).isOpen }

/-! ## The segments of a call -/

def begin (s : ReplicaStore) (q : Nat) (c : ReplicaCall) : ReplicaStore :=
  let u := s.queues q
  let stopping := s.setQueue q { u with stopHistory := none, stage := .stopping }
  match c.command with
  | .activate _ => if c.generation ≠ s.generation then s.setQueue q u.settle else stopping
  | _ => stopping

/-- `open`, unless it throws. -/
def openReplica (s : ReplicaStore) (q : Nat) (u : SyncQueue) (identity : String) (throws : Bool) : ReplicaStore :=
  if throws then s.setQueue q u.settle
  else { s.setReplica s.opened ⟨identity, true, false⟩ with opened := s.opened + 1 }.setQueue q (u.toStage (.opening s.opened))

/-- After `stopUploads`. -/
def stopped (s : ReplicaStore) (q : Nat) (c : ReplicaCall) (throws : Bool) : ReplicaStore :=
  let u := (s.queues q).uploadsStopped
  match c.command, u.active with
  | .activate identity, none => s.openReplica q u identity throws
  | .activate identity, some a =>
    if a.identity = identity then s.setQueue q (u.awaitDisconnect c s.generation)
    else s.setQueue q (u.unsubscribed.detach a)
  | .pause, none => s.setQueue q u.settle
  | .pause, some a => s.setQueue q (u.detach a)
  | .close, none => s.setQueue q u.unsubscribed.settle
  | .close, some a => s.setQueue q (u.unsubscribed.detach a)
  | .discard names, none => s.setQueue q (u.unsubscribed.toStage (.removing names))
  | .discard _, some a => s.setQueue q ((u.unsubscribed.setActive (some { a with joined := false })).toStage .clearing)

/-- After the `disconnect` of `detach`. -/
def left (s : ReplicaStore) (q : Nat) (c : ReplicaCall) : ReplicaStore :=
  match c.command with
  | .pause => s.setQueue q (s.queues q).settle
  | _ => s.setQueue q ((s.queues q).toStage .closing)

/-- The replica is closed. -/
def shutActive (s : ReplicaStore) (q : Nat) (a : ActiveReplica) : ReplicaStore :=
  (s.shut a.db).setQueue q ((s.queues q).toStage .closed)

/-- The queue lets its replica go. -/
def released (s : ReplicaStore) (q : Nat) (c : ReplicaCall) (a : ActiveReplica) (throws : Bool) : ReplicaStore :=
  let u := (s.queues q).setActive none
  match c.command with
  | .activate identity => s.openReplica q u identity throws
  | .discard names => s.setQueue q (u.toStage (.removing (names.insert a.filename)))
  | _ => s.setQueue q u.settle

/-- After `disconnectAndClear`, which may have failed. -/
def cleared (s : ReplicaStore) (q : Nat) (a : ActiveReplica) (wiped : Bool) : ReplicaStore :=
  (if wiped then s.setFile a.filename none else s).setQueue q ((s.queues q).toStage .closing)

/-- A named file is removed, unless something holds it. -/
def removed (s : ReplicaStore) (q : Nat) (name : String) (names : List String) (gone : Bool) : ReplicaStore :=
  (if gone then s.setFile name none else s).setQueue q ((s.queues q).toStage (.removing names))

/-- After `init`. -/
def inited (s : ReplicaStore) (q : Nat) (db : Nat) : ReplicaStore :=
  let u := s.queues q
  s.setQueue q (u.toStage (if u.abandoned then .dropping db else .claiming db))

/-- The transaction that claims a replica; one with rows but no owner is refused. -/
def claim (s : ReplicaStore) (q : Nat) (db : Nat) (identity : String) (empty : Bool) : ReplicaStore :=
  let u := s.queues q
  match s.files (replicaFilename identity) with
  | some owner => s.setQueue q (u.toStage (.claimed db owner))
  | none =>
    if empty then (s.setFile (replicaFilename identity) (some identity)).setQueue q (u.toStage (.claimed db identity))
    else s.setQueue q (u.toStage (.dropping db))

/-- After the transaction. -/
def claimed (s : ReplicaStore) (q : Nat) (c : ReplicaCall) (identity : String) (db : Nat) (owner : String)
    (shared : Bool) : ReplicaStore :=
  let u := s.queues q
  if owner ≠ identity ∨ u.abandoned = true then s.setQueue q (u.toStage (.dropping db))
  else
    s.setQueue q ((u.setActive (some ⟨db, identity, replicaFilename identity, shared, false, false, false⟩)).awaitDisconnect
      c s.generation)

/-- The `close` of a replica that could not be opened. -/
def dropped (s : ReplicaStore) (q : Nat) (db : Nat) : ReplicaStore := (s.shut db).setQueue q (s.queues q).settle

/-- After the `disconnect` of an activate. -/
def disconnected (s : ReplicaStore) (q : Nat) (c : ReplicaCall) : ReplicaStore :=
  let u := s.queues q
  s.setQueue q (if c.generation ≠ s.generation then u.settle else u.toStage .subscribing)

/-- After `subscribeHistory`: it listens, connects, starts the uploads and the upkeep, and resolves. -/
def connect (s : ReplicaStore) (q : Nat) (identity : String) (a : ActiveReplica) : ReplicaStore :=
  let u := s.queues q
  let joins := a.shared && !a.stopListening
  { s with
    starts := ⟨q, u.abandoned⟩ :: s.starts
    resolved := ⟨identity, s.files a.filename⟩ :: s.resolved }.setQueue q
    { u with
      history := some a.db
      stopUploads := some a.db
      stopHistory := some a.db
      active := some { a with
        connector := true
        stopListening := a.stopListening || joins
        joined := a.joined || joins } }.settle

/-! ## Other tabs -/

/-- Another tab hands off, and this one begins to take over. -/
def takeOver (s : ReplicaStore) (q : Nat) (a : ActiveReplica) : ReplicaStore :=
  { s with takeOvers := (q, a.db) :: s.takeOvers }

/-- Whether `reconnect` of a listener still connects. -/
def reconnects (s : ReplicaStore) (q : Nat) (db : Nat) : Bool :=
  (s.queues q).active.any fun a => decide (a.db = db) && a.stopListening && a.connector

def reconnect (s : ReplicaStore) (q : Nat) (db : Nat) : ReplicaStore :=
  let done := { s with takeOvers := s.takeOvers.erase (q, db) }
  if s.reconnects q db then { done with starts := ⟨q, (s.queues q).abandoned⟩ :: s.starts } else done

end ReplicaStore

/-! ## Steps -/

inductive ReplicaAction where
  | activate (identity : String)
  | pause
  | close
  | discard (identity : Option String)
  | abandon
  /-- What the first call of a queue awaits settles. -/
  | run (q : Nat)
  /-- It fails. -/
  | fail (q : Nat)
  | takeOver (q : Nat)
  | reconnect (q : Nat)
  /-- The close an abandon does not wait for settles, or fails. -/
  | shut (db : Nat)
  | shutFails (db : Nat)
  deriving DecidableEq, Repr

/-- The first call of a queue and what it awaits. -/
def SyncQueue.Awaits (u : SyncQueue) (c : ReplicaCall) (stage : ReplicaStage) : Prop :=
  u.line.head? = some c ∧ u.stage = stage

inductive ReplicaStep : ReplicaStore → ReplicaAction → ReplicaStore → Prop
  | activate {s identity} : ReplicaStep s (.activate identity) (s.activate identity)
  | pause {s} : ReplicaStep s .pause s.pause
  | close {s} : ReplicaStep s .close s.close
  | discard {s identity} : ReplicaStep s (.discard identity) (s.discard identity)
  | abandon {s} : ReplicaStep s .abandon s.abandon
  | begin {s q c} (h : (s.queues q).Awaits c .waiting) : ReplicaStep s (.run q) (s.begin q c)
  | stopped {s q c throws} (h : (s.queues q).Awaits c .stopping) : ReplicaStep s (.run q) (s.stopped q c throws)
  | left {s q c} (h : (s.queues q).Awaits c .leaving) : ReplicaStep s (.run q) (s.left q c)
  | shutActive {s q c a} (h : (s.queues q).Awaits c .closing) (ha : (s.queues q).active = some a) :
      ReplicaStep s (.run q) (s.shutActive q a)
  | released {s q c a throws} (h : (s.queues q).Awaits c .closed) (ha : (s.queues q).active = some a) :
      ReplicaStep s (.run q) (s.released q c a throws)
  | cleared {s q c a wiped} (h : (s.queues q).Awaits c .clearing) (ha : (s.queues q).active = some a) :
      ReplicaStep s (.run q) (s.cleared q a wiped)
  | removed {s q c name names gone} (h : (s.queues q).Awaits c (.removing (name :: names))) :
      ReplicaStep s (.run q) (s.removed q name names gone)
  | discarded {s q c} (h : (s.queues q).Awaits c (.removing [])) : ReplicaStep s (.run q) (s.setQueue q (s.queues q).settle)
  | inited {s q c db} (h : (s.queues q).Awaits c (.opening db)) : ReplicaStep s (.run q) (s.inited q db)
  | claim {s q c identity db empty} (h : (s.queues q).Awaits c (.claiming db)) (hc : c.command = .activate identity) :
      ReplicaStep s (.run q) (s.claim q db identity empty)
  | claimed {s q c identity db owner shared} (h : (s.queues q).Awaits c (.claimed db owner))
      (hc : c.command = .activate identity) : ReplicaStep s (.run q) (s.claimed q c identity db owner shared)
  | dropped {s q c db} (h : (s.queues q).Awaits c (.dropping db)) : ReplicaStep s (.run q) (s.dropped q db)
  | disconnected {s q c} (h : (s.queues q).Awaits c .disconnecting) : ReplicaStep s (.run q) (s.disconnected q c)
  | connect {s q c identity a} (h : (s.queues q).Awaits c .subscribing) (hc : c.command = .activate identity)
      (ha : (s.queues q).active = some a) : ReplicaStep s (.run q) (s.connect q identity a)
  /-- The call is rejected with the error. -/
  | fails {s q c stage} (h : (s.queues q).Awaits c stage)
      (hs : stage ∈ [.stopping, .leaving, .closing, .closed, .disconnecting, .subscribing] ∨
        (∃ names, stage = .removing names) ∨ ∃ db, stage = .dropping db)
      (hd : ∀ names, c.command = .discard names → stage ≠ .closing ∧ stage ≠ .closed) :
      ReplicaStep s (.fail q) (s.setQueue q (s.queues q).settle)
  /-- A discard goes on although its replica could not be closed. -/
  | unclosed {s q c a names} (h : (s.queues q).Awaits c .closing) (hc : c.command = .discard names)
      (ha : (s.queues q).active = some a) : ReplicaStep s (.fail q) (s.released q c a false)
  /-- The replica that could not be opened or claimed is closed. -/
  | unopened {s q c stage db} (h : (s.queues q).Awaits c stage)
      (hs : stage = .opening db ∨ stage = .claiming db ∨ ∃ owner, stage = .claimed db owner) :
      ReplicaStep s (.fail q) (s.setQueue q ((s.queues q).toStage (.dropping db)))
  | takeOver {s q a} (ha : (s.queues q).active = some a) (hj : a.joined = true) :
      ReplicaStep s (.takeOver q) (s.takeOver q a)
  | reconnect {s q db} (h : (q, db) ∈ s.takeOvers) : ReplicaStep s (.reconnect q) (s.reconnect q db)
  | shut {s db} (h : (s.replicas db).closing = true) : ReplicaStep s (.shut db) (s.shut db)
  | shutFails {s db} (h : (s.replicas db).closing = true) :
      ReplicaStep s (.shutFails db) (s.setReplica db { s.replicas db with closing := false })

/-! ## What the controller keeps -/

/-- Nothing syncs on a queue that was given up, and an activate resolves with a replica of its own. -/
structure SyncsOwn (s : ReplicaStore) : Prop where
  starts : ∀ e ∈ s.starts, e.abandoned = false
  resolved : ∀ e ∈ s.resolved, e.stored = some e.identity

/-- Every call has settled. -/
structure AllSettled (s : ReplicaStore) : Prop where
  line : ∀ q, (s.queues q).line = []
  closing : ∀ db, (s.replicas db).closing = false

/-- At most one replica is open, that of the last activate unless a call after it ended it. -/
structure OneOpen (s : ReplicaStore) : Prop where
  one : ∀ db db', (s.replicas db).isOpen = true → (s.replicas db').isOpen = true → db = db'
  last : ∀ db, (s.replicas db).isOpen = true → s.last = some (s.replicas db).identity

/-! ## When it does -/

/-- An abandon comes while no activate of the queue awaits its history, no take-over of its replica
is under way and no discard is in it. -/
structure AbandonsInTime (s : ReplicaStore) (action : ReplicaAction) (s' : ReplicaStore) : Prop where
  step : ReplicaStep s action s'
  subscribing : action = .abandon → (s.queues s.current).stage ≠ .subscribing
  takeOver : action = .abandon → ∀ a, (s.queues s.current).active = some a → (s.current, a.db) ∉ s.takeOvers
  discard : action = .abandon → ∀ c ∈ (s.queues s.current).line, ∀ names, c.command ≠ .discard names

/-- The stages at which a queue still has the replica it was called with. -/
def ReplicaStage.early : ReplicaStage → Bool
  | .waiting | .stopping | .leaving | .closing | .closed | .clearing => true
  | _ => false

/-- The calls that have yet to let go of the replica the queue holds. -/
def SyncQueue.pending (u : SyncQueue) : List ReplicaCall := if u.stage.early then u.line else u.line.tail

/-- Whether what the first call awaits closes a replica. -/
def SyncQueue.windsDown (u : SyncQueue) : Prop :=
  (u.stage ∈ [.stopping, .leaving] ∧ ∀ c ∈ u.line.head?, c.command ≠ .pause) ∨ u.stage ∈ [.closing, .closed] ∨
    ∃ db, u.stage = .dropping db

/-- Nothing that closes a replica fails, and a pause does not supersede an activate that has yet to
let the earlier replica go. -/
structure WindsDown (s : ReplicaStore) (action : ReplicaAction) (s' : ReplicaStore) : Prop where
  step : ReplicaStep s action s'
  pause : action = .pause → ∀ c ∈ (s.queues s.current).pending, ∀ identity, c.command = .activate identity →
    c.generation ≠ s.generation
  fail : ∀ q, action = .fail q → ¬(s.queues q).windsDown
  shut : ∀ db, action ≠ .shutFails db

end ClientBridge
