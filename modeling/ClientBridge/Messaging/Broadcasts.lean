import ClientBridge.Ledger.Journals
import ClientBridge.Library.Interleave

/-!
# Broadcasts

A broadcast is sent by workers.  A worker computes who it goes to, stores their number, and then
goes through them: for each one it claims the broadcast's row again, looks whether the client has
a message of it and can still be reached, and adds the message or takes one off the count.
Between two recipients the row is free, so that another worker may take it.
-/

namespace ClientBridge

open Runs

/-- The newest answer of a client about marketing texts. -/
inductive MarketingConsent where
  | granted | withdrawn
  | implied (expiresAt : Option Int)
  deriving DecidableEq, Repr

/-- A client of the business; the number is the one texts go to, if the phone has one. -/
structure CastClient where
  id : Id
  active : Bool
  tags : List String
  number : Option String
  consent : Option MarketingConsent
  deriving DecidableEq, Repr

structure BroadcastAudience where
  all : Bool
  tags : List String
  deriving DecidableEq, Repr

inductive BroadcastStatus where
  | scheduled | sending | sent | canceled
  deriving DecidableEq, Repr

/-- Whether the status leaves work to do (`_claim_broadcast`). -/
def BroadcastStatus.claimable : BroadcastStatus → Bool
  | .scheduled | .sending => true
  | _ => false

/-- What a transaction reads of a client: the row, whether its number's last reply was STOP, and the time. -/
structure ClientRead where
  row : Option CastClient
  stopped : Bool
  now : Int
  deriving DecidableEq, Repr

/-- A message of the broadcast, where it goes, and what its transaction read of the client. -/
structure BroadcastMessage where
  client : Id
  number : String
  read : ClientRead
  deriving DecidableEq, Repr

def broadcastCap : Nat := 500

/-- `allows_marketing`. -/
def allowsMarketing (consent : Option MarketingConsent) (now : Int) : Bool :=
  match consent with
  | none => false
  | some .withdrawn => false
  | some (.implied (some expiresAt)) => decide (now < expiresAt)
  | some _ => true

/-- The clients in the order of their ids, the numbers whose last reply was STOP, the broadcast's
row with its lock, and its messages.  The stored audience may no longer be valid.  What is not
stored: who computed the counts last, whom these count, and the messages there were at a cancel. -/
structure BroadcastStore (π : Type) where
  clients : List CastClient
  stopped : String → Bool
  clock : Int
  audience : Option BroadcastAudience
  status : BroadcastStatus
  recipientCount : Int
  excludedCount : Int
  lock : Option π
  messages : List BroadcastMessage
  last : Option π
  counted : List Id
  atCancel : Option (List BroadcastMessage)

namespace BroadcastStore

variable {π : Type}

/-- `_reachable`: where a client can be texted. -/
def reachable (s : BroadcastStore π) (c : CastClient) : Option String :=
  c.number.filter fun number => !s.stopped number && allowsMarketing c.consent s.clock

def inAudience (a : BroadcastAudience) (c : CastClient) : Bool :=
  c.active && (a.all || a.tags.isEmpty || a.tags.any fun tag => decide (tag ∈ c.tags))

def audienceClients (s : BroadcastStore π) (a : BroadcastAudience) : List CastClient := s.clients.filter (inAudience a)

/-- `broadcast_recipients`: the clients it goes to. -/
def recipients (s : BroadcastStore π) (a : BroadcastAudience) : List Id :=
  (((s.audienceClients a).filter fun c => (s.reachable c).isSome).take broadcastCap).map (·.id)

/-- How many of the audience are left out. -/
def excluded (s : BroadcastStore π) (a : BroadcastAudience) : Int :=
  (s.audienceClients a).length - (s.recipients a).length

/-- `_still_reachable`. -/
def stillReachable (s : BroadcastStore π) (client : Id) : Option String :=
  (s.clients.find? fun c => decide (c.id = client) && c.active).bind s.reachable

def readClient (s : BroadcastStore π) (client : Id) : ClientRead :=
  let row := s.clients.find? fun c => decide (c.id = client)
  ⟨row, (row.bind CastClient.number).any s.stopped, s.clock⟩

/-- `_already_messaged`. -/
def alreadyMessaged (s : BroadcastStore π) (client : Id) : Bool := s.messages.any fun m => decide (m.client = client)

def messaged (s : BroadcastStore π) : List Id := s.messages.map (·.client)

variable [DecidableEq π]

def release (s : BroadcastStore π) (p : π) : BroadcastStore π := { s with lock := if s.lock = some p then none else s.lock }

/-- The counts are computed anew. -/
def setCounts (s : BroadcastStore π) (p : π) (targets : List Id) (excluded : Int) : BroadcastStore π :=
  { s with
    status := .sending
    recipientCount := targets.length
    excludedCount := excluded
    last := some p
    counted := targets }

/-- A recipient cannot be reached anymore; the counts are written from those the worker holds. -/
def takeOff (s : BroadcastStore π) (client : Id) (count excluded : Int) : BroadcastStore π :=
  { s with recipientCount := count - 1, excludedCount := excluded + 1, counted := s.counted.filter fun c => decide (c ≠ client) }

def addMessage (s : BroadcastStore π) (client : Id) (number : String) (read : ClientRead) : BroadcastStore π :=
  { s with messages := s.messages ++ [⟨client, number, read⟩] }

def cancel (s : BroadcastStore π) : BroadcastStore π := { s with status := .canceled, atCancel := some s.messages }

end BroadcastStore

/-- Where a worker is; on its way it holds the recipients it still has to go through and the counts
as its session has them, and what it read of a client it looked at. -/
inductive SendPlace where
  | idle
  | claimed
  | computed (targets : List Id) (excluded : Int)
  | sending (todo : List Id) (count excluded : Int)
  | next (client : Id) (todo : List Id) (count excluded : Int)
  | looked (client : Id) (todo : List Id) (count excluded : Int) (found : Option String) (read : ClientRead)
  | finishing
  deriving DecidableEq, Repr

/-- A step of a worker or of a cancel command, or a change of the clients, the replies or the time. -/
inductive SendStep {π : Type} [DecidableEq π] (p : π) : BroadcastStore π → SendPlace → BroadcastStore π → SendPlace → Prop
  | change {s clients stopped now} (hc : (clients.map CastClient.id).Nodup) :
      SendStep p s .idle { s with clients := clients, stopped := stopped, clock := now } .idle
  | cancel {s} (hl : s.lock = none) (hs : s.status = .scheduled) : SendStep p s .idle s.cancel .idle
  | claim {s} (hl : s.lock = none) (hs : s.status.claimable = true) :
      SendStep p s .idle { s with lock := some p } .claimed
  | invalid {s} (ha : s.audience = none) : SendStep p s .claimed (s.cancel.release p) .idle
  | compute {s a} (ha : s.audience = some a) : SendStep p s .claimed s (.computed (s.recipients a) (s.excluded a))
  | start {s targets excluded} :
      SendStep p s (.computed targets excluded) ((s.setCounts p targets excluded).release p)
        (.sending targets targets.length excluded)
  /-- A session that was rolled back reads the counts again. -/
  | expire {s todo count excluded} :
      SendStep p s (.sending todo count excluded) s (.sending todo s.recipientCount s.excludedCount)
  | claimNext {s client todo count excluded} (hl : s.lock = none) (hs : s.status.claimable = true) :
      SendStep p s (.sending (client :: todo) count excluded) { s with lock := some p } (.next client todo count excluded)
  | already {s client todo count excluded} (h : s.alreadyMessaged client = true) :
      SendStep p s (.next client todo count excluded) (s.release p) (.sending todo count excluded)
  | look {s client todo count excluded} (h : s.alreadyMessaged client = false) :
      SendStep p s (.next client todo count excluded) s
        (.looked client todo count excluded (s.stillReachable client) (s.readClient client))
  | gone {s client todo count excluded read} :
      SendStep p s (.looked client todo count excluded none read) ((s.takeOff client count excluded).release p)
        (.sending todo (count - 1) (excluded + 1))
  | message {s client todo count excluded number read} :
      SendStep p s (.looked client todo count excluded (some number) read) ((s.addMessage client number read).release p)
        (.sending todo count excluded)
  | claimLast {s count excluded} (hl : s.lock = none) (hs : s.status.claimable = true) :
      SendStep p s (.sending [] count excluded) { s with lock := some p } .finishing
  | sent {s} : SendStep p s .finishing ({ s with status := .sent }.release p) .idle
  /-- A claim that fails, a crash or a refusal. -/
  | stop {s x} : SendStep p s x (s.release p) .idle

/-- Nobody is left for a worker to go through. -/
def SendPlace.through : SendPlace → Bool
  | .sending [] _ _ | .finishing => true
  | _ => false

/-- A step; recipients are computed with those among them who have a message already, a message goes
to a client that is counted, only the worker that computed the counts last takes clients off them, and
the broadcast is marked sent once that worker has gone through its recipients. -/
structure CountedStep {π : Type} [DecidableEq π] (w : World π (BroadcastStore π) SendPlace) (p : π)
    (w' : World π (BroadcastStore π) SendPlace) : Prop where
  step : Interleaved SendStep w p w'
  start : ∀ targets excluded, w.place p = .computed targets excluded → w'.place p ≠ .idle →
    ∀ client ∈ w.store.messaged, client ∈ targets
  gone : ∀ client todo count excluded read, w.place p = .looked client todo count excluded none read → w'.place p ≠ .idle →
    w.store.last = some p
  message : ∀ client todo count excluded number read, w.place p = .looked client todo count excluded (some number) read →
    w'.place p ≠ .idle → client ∈ w.store.counted
  sent : w.place p = .finishing → w'.store.status = .sent → ∃ q, w.store.last = some q ∧ (w.place q).through = true

/-! ## What a broadcast did -/

/-- The client read is active and has the number, whose last reply is not STOP, and allows marketing. -/
structure ClientRead.Reached (read : ClientRead) (client : Id) (number : String) : Prop where
  row : ∃ c, read.row = some c ∧ c.id = client ∧ c.active = true ∧ c.number = some number ∧
    allowsMarketing c.consent read.now = true
  stopped : read.stopped = false

/-- One message a client, each to a client its own transaction read as one to be reached, and none after a cancel. -/
structure CastRight {π : Type} (s : BroadcastStore π) : Prop where
  once : s.messaged.Nodup
  reached : ∀ m ∈ s.messages, m.read.Reached m.client m.number
  canceled : ∀ messages, s.atCancel = some messages → s.messages = messages

end ClientBridge
