import ClientBridge.Ledger.Journals
import ClientBridge.Library.Interleave

/-!
# Replies to Google reviews

A reply operation is queued and carried out later.  `execute_operation` takes the lock of the
business, reads the review's reply, marks the operation running and commits, which lets the lock
go; it takes the lock again, looks whether it still may, and only then writes to Google.  An
operation it finds running or unknown is only read back.
-/

namespace ClientBridge

open Runs

inductive ConnectionState where
  | disconnected | selecting | active | reconnectRequired
  deriving DecidableEq, Repr

structure GoogleConnection where
  id : Id
  state : ConnectionState
  generation : Nat
  deriving DecidableEq, Repr

inductive ReplyKind where
  | put | delete
  deriving DecidableEq, Repr

inductive ReplyState where
  | queued | running | unknown | confirmed | failed | canceled
  deriving DecidableEq, Repr

def ReplyState.pending : ReplyState → Bool
  | .queued | .running | .unknown => true
  | _ => false

/-- Whether an execution only reads back what became of the write. -/
def ReplyState.reconciling : ReplyState → Bool
  | .running | .unknown => true
  | _ => false

inductive GoogleError where
  | requestRejected | accessDenied | notFound | invalidResource | reconnectRequired | rateLimited | unavailable
  deriving DecidableEq, Repr

/-- The codes after which nothing was written. -/
def GoogleError.hard : GoogleError → Bool
  | .rateLimited | .unavailable => false
  | _ => true

/-- The state a Google error leaves an operation in; `state` is the one the session holds. -/
def ReplyState.afterError (reconciling : Bool) (state : ReplyState) (code : GoogleError) : ReplyState :=
  if reconciling then .unknown
  else if code.hard then .failed
  else if code = .rateLimited then .queued
  else if state = .running then .unknown
  else .queued

/-- The reply Google has on a review; its time is held as the text it is compared as. -/
structure GoogleReply where
  comment : String
  updateTime : Option String
  deriving DecidableEq, Repr

/-- The text of a put is sealed until the operation is over. -/
structure ReplyOperation where
  connectionId : Id
  generation : Nat
  kind : ReplyKind
  request : Option String
  expectedRevision : Option String
  state : ReplyState
  createdAt : Int
  deriving DecidableEq, Repr

/-- The reply an execution wants on the review; a put whose text is gone cannot be opened. -/
def ReplyOperation.desired (o : ReplyOperation) : Option (Option String) :=
  match o.kind with
  | .delete => some none
  | .put => o.request.map some

/-- A state written by a session that holds `seen`; one that is as it was is not written. -/
def ReplyOperation.write (o : ReplyOperation) (seen new : ReplyState) : ReplyOperation :=
  { o with
    state := if new = seen then o.state else new
    request := if new.pending then o.request else none
    expectedRevision := if new.pending then o.expectedRevision else none }

def ReplyOperation.cancel (o : ReplyOperation) : ReplyOperation :=
  { o with state := .canceled, request := none, expectedRevision := none }

/-- What Google answered to a put or a delete. -/
inductive SendAnswer where
  | ok
  | error (code : GoogleError)
  deriving DecidableEq, Repr

/-- A put or delete sent to Google: the connection's generation then, whether the operation had
been canceled, and the answer, unless none was received. -/
structure ReplySend where
  generation : Nat
  canceled : Bool
  answer : Option SendAnswer
  deriving DecidableEq, Repr

/-- A week, in seconds. -/
def sevenDays : Int := 7 * 24 * 60 * 60

/-- The connection of a business, one of its operations, the review's reply and the lock.  What is
not stored: the wanted reply, the writes sent, newest first, the replies read back, whether the
operation was canceled, and the execution that marked it running and may still write. -/
structure ReplyStore (π : Type) where
  connection : Option GoogleConnection
  operation : ReplyOperation
  reply : Option GoogleReply
  lock : Option π
  clock : Int
  goal : Option String
  sends : List ReplySend
  reads : List (Option String)
  canceled : Bool
  writer : Option π

namespace ReplyStore

variable {π : Type}

/-- The operation's age, at which a sweep cancels it. -/
def aged (s : ReplyStore π) : Bool := decide (sevenDays ≤ s.clock - s.operation.createdAt)

/-- Whether the connection is still the one the operation was queued under. -/
def executable (s : ReplyStore π) : Bool :=
  (s.connection.any fun c =>
    decide (c.state = .active ∧ c.id = s.operation.connectionId ∧ c.generation = s.operation.generation)) && !s.aged

def cancel (s : ReplyStore π) : ReplyStore π := { s with operation := s.operation.cancel, canceled := true }

/-- `cancel_operations`. -/
def cancelOperations (s : ReplyStore π) : ReplyStore π := if s.operation.state.pending then s.cancel else s

/-- The sweep of `run_google_operations`. -/
def sweep (s : ReplyStore π) : ReplyStore π := if s.operation.state.pending && s.aged then s.cancel else s

/-- What the commands that change the connection share. -/
def changeConnection (s : ReplyStore π) (c : GoogleConnection) (state : ConnectionState) : ReplyStore π :=
  { s with connection := some { c with state := state, generation := c.generation + 1 } }.cancelOperations

def complete (s : ReplyStore π) (c : GoogleConnection) : ReplyStore π := s.changeConnection c .selecting

def select (s : ReplyStore π) (c : GoogleConnection) : ReplyStore π := s.changeConnection c .active

def disconnect (s : ReplyStore π) (c : GoogleConnection) : ReplyStore π := s.changeConnection c .disconnected

/-- A refresh that Google refuses (`token`). -/
def refuseToken (s : ReplyStore π) (c : GoogleConnection) : ReplyStore π :=
  { s with connection := some { c with state := .reconnectRequired } }

/-- The connection is still of the operation's generation and the operation is marked running. -/
def mayWrite (s : ReplyStore π) : Bool :=
  (s.connection.any fun c => decide (c.generation = s.operation.generation)) && decide (s.operation.state = .running)

/-- The review's reply as a text. -/
def comment (reply : Option GoogleReply) : Option String := reply.map (·.comment)

def revision (reply : Option GoogleReply) : Option String := reply.bind (·.updateTime)

def addSend (s : ReplyStore π) (c : GoogleConnection) : ReplyStore π :=
  { s with sends := ⟨c.generation, s.canceled, none⟩ :: s.sends }

/-- The newest write is answered. -/
def answer (s : ReplyStore π) (a : SendAnswer) : ReplyStore π :=
  match s.sends with
  | [] => s
  | e :: earlier => { s with sends := { e with answer := some a } :: earlier }

variable [DecidableEq π]

/-- The lock is let go, as a commit does. -/
def release (s : ReplyStore π) (p : π) : ReplyStore π := { s with lock := if s.lock = some p then none else s.lock }

/-- The end of an execution: the state is written and committed. -/
def finish (s : ReplyStore π) (p : π) (seen new : ReplyState) : ReplyStore π :=
  { s with operation := s.operation.write seen new }.release p

/-- The operation is marked running, and the commit lets the lock go. -/
def mark (s : ReplyStore π) (p : π) (seen : ReplyState) : ReplyStore π :=
  { s.finish p seen .running with writer := some p }

/-- The execution does not write anymore. -/
def leave (s : ReplyStore π) (p : π) : ReplyStore π :=
  { s.release p with writer := if s.writer = some p then none else s.writer }

end ReplyStore

/-- The state after the answer to a write, of an operation the session holds as running. -/
def SendAnswer.state : SendAnswer → ReplyState
  | .ok => .confirmed
  | .error code => ReplyState.afterError false .running code

/-- Where an execution is; `seen` is the operation as its session holds it. -/
inductive ReplyPlace where
  | idle
  | due (seen : ReplyOperation)
  | locked
  | fetching (seen : ReplyOperation)
  | refused (seen : ReplyOperation)
  | deciding (seen : ReplyOperation) (reply : Option GoogleReply)
  | marked
  | writing
  | awaiting
  | answered (a : SendAnswer)
  deriving DecidableEq, Repr

/-- A step of an execution or of a sweep, a command on the connection, or a change at Google. -/
inductive ReplyStep {π : Type} [DecidableEq π] (p : π) :
    ReplyStore π → ReplyPlace → ReplyStore π → ReplyPlace → Prop
  | tick {s now} (h : s.clock ≤ now) : ReplyStep p s .idle { s with clock := now } .idle
  /-- The owner on Google, or a write of ours that arrives. -/
  | replied {s reply} : ReplyStep p s .idle { s with reply := reply } .idle
  | complete {s c} (hl : s.lock = none) (hc : s.connection = some c) : ReplyStep p s .idle (s.complete c) .idle
  | select {s c} (hl : s.lock = none) (hc : s.connection = some c) : ReplyStep p s .idle (s.select c) .idle
  | disconnect {s c} (hl : s.lock = none) (hc : s.connection = some c) (hd : c.state ≠ .disconnected) :
      ReplyStep p s .idle (s.disconnect c) .idle
  /-- Another call of the service whose token is refused. -/
  | lost {s c} (hl : s.lock = none) (hc : s.connection = some c) : ReplyStep p s .idle (s.refuseToken c) .idle
  | sweep {s} : ReplyStep p s .idle s.sweep .idle
  | scan {s} (h : s.operation.state.pending = true) : ReplyStep p s .idle s (.due s.operation)
  /-- Its author is not a manager anymore. -/
  | dismiss {s seen} : ReplyStep p s (.due seen) s.cancel .idle
  | keep {s seen} : ReplyStep p s (.due seen) s .idle
  | lock {s} (hl : s.lock = none) : ReplyStep p s .idle { s with lock := some p } .locked
  | ended {s} (h : s.operation.state.pending = false) : ReplyStep p s .locked (s.release p) .idle
  | expire {s} (h : s.operation.state.pending = true) (he : s.executable = false) :
      ReplyStep p s .locked (s.cancel.release p) .idle
  | read {s} (h : s.operation.state.pending = true) (he : s.executable = true) :
      ReplyStep p s .locked s (.fetching s.operation)
  /-- The commit of a refused token lets the lock go before the error is dealt with. -/
  | refuse {s seen c} (hc : s.connection = some c) :
      ReplyStep p s (.fetching seen) ((s.refuseToken c).release p) (.refused seen)
  | refused {s seen} :
      ReplyStep p s (.refused seen)
        (s.finish p seen.state (.afterError seen.state.reconciling seen.state .reconnectRequired)) .idle
  | unread {s seen code} :
      ReplyStep p s (.fetching seen)
        (s.finish p seen.state (.afterError seen.state.reconciling seen.state code)) .idle
  | fetch {s seen} : ReplyStep p s (.fetching seen) s (.deciding seen s.reply)
  | confirm {s seen reply} (hd : seen.desired = some (ReplyStore.comment reply)) :
      ReplyStep p s (.deciding seen reply)
        ({ s with reads := ReplyStore.comment reply :: s.reads }.finish p seen.state .confirmed) .idle
  | uncertain {s seen reply desired} (hd : seen.desired = some desired) (hm : desired ≠ ReplyStore.comment reply)
      (hr : seen.state.reconciling = true) :
      ReplyStep p s (.deciding seen reply) (s.finish p seen.state .unknown) .idle
  | stale {s seen reply desired} (hd : seen.desired = some desired) (hm : desired ≠ ReplyStore.comment reply)
      (hr : seen.state.reconciling = false) (he : ReplyStore.revision reply ≠ seen.expectedRevision) :
      ReplyStep p s (.deciding seen reply) (s.finish p seen.state .failed) .idle
  | mark {s seen reply desired} (hd : seen.desired = some desired) (hm : desired ≠ ReplyStore.comment reply)
      (hr : seen.state.reconciling = false) (he : ReplyStore.revision reply = seen.expectedRevision) :
      ReplyStep p s (.deciding seen reply) (s.mark p seen.state) .marked
  | relock {s} (hl : s.lock = none) (hm : s.mayWrite = true) : ReplyStep p s .marked { s with lock := some p } .writing
  | giveUp {s} (hl : s.lock = none) (hm : s.mayWrite = false) : ReplyStep p s .marked (s.leave p) .idle
  | send {s c} (hc : s.connection = some c) : ReplyStep p s .writing (s.addSend c) .awaiting
  | answer {s a} : ReplyStep p s .awaiting (s.answer a) (.answered a)
  | commit {s a} : ReplyStep p s (.answered a) ((s.finish p .running a.state).leave p) .idle
  /-- A crash, or an error that is not Google's. -/
  | crash {s x} : ReplyStep p s x (s.leave p) .idle

/-- An execution under the lock that found the operation queued, or that is writing. -/
def ReplyPlace.holdsWrite : ReplyPlace → Bool
  | .fetching seen | .deciding seen _ => !seen.state.reconciling
  | .writing | .awaiting | .answered _ => true
  | _ => false

/-- A step; an operation is canceled while no other execution found it queued or is writing it. -/
structure GuardedStep {π : Type} [DecidableEq π] (w : World π (ReplyStore π) ReplyPlace) (p : π)
    (w' : World π (ReplyStore π) ReplyPlace) : Prop where
  step : Interleaved ReplyStep w p w'
  cancel : w'.store.canceled ≠ w.store.canceled → ∀ q, q ≠ p → (w.place q).holdsWrite = false

/-! ## What was sent -/

/-- Every write before another was turned away for its rate, all went through the connection the
operation was queued under, and a confirmed operation was read back or written. -/
structure RepliesSound {π : Type} (s : ReplyStore π) : Prop where
  limited : s.sends.Pairwise fun _ earlier => earlier.answer = some (.error .rateLimited)
  generation : ∀ e ∈ s.sends, e.generation = s.operation.generation
  confirmed : s.operation.state = .confirmed → s.goal ∈ s.reads ∨ ∃ e ∈ s.sends, e.answer = some .ok

/-- A queued operation nobody works on. -/
structure ReplyQueued {π : Type} (w : World π (ReplyStore π) ReplyPlace) : Prop where
  idle : ∀ p, w.place p = .idle
  queued : w.store.operation.state = .queued
  goal : w.store.operation.desired = some w.store.goal
  unsent : w.store.sends = []
  uncanceled : w.store.canceled = false
  unlocked : w.store.lock = none
  unmarked : w.store.writer = none

end ClientBridge
