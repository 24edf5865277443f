import ClientBridge.Library.Interleave

/-!
# The outbox of a device

A member's working week is edited offline.  `enqueueHours` stores each edit as a row of the
`hours_outbox` table, linked to the row it was made after; `uploadHoursOnce` claims the first row
that may go, posts its payload, and writes down the answer.  Every tab of the device works on the
same table, one write transaction at a time; what happens between two transactions of one tab is
up to the others.
-/

namespace ClientBridge

structure WeekDay where
  weekday : Nat
  available : Bool
  startTime : Option String
  endTime : Option String
  deriving DecidableEq, Repr

structure WeekRequest where
  deviceId : String
  operationId : String
  businessId : String
  createdAt : String
  expectedRevision : Int
  days : List WeekDay
  deriving DecidableEq, Repr

inductive OutboxState where
  | queued
  | sending
  | accepted
  | rejected
  deriving DecidableEq, Repr

structure Member where
  businessId : String
  staffId : String
  deriving DecidableEq, Repr

/-- A row of the `hours_outbox` table; times are in milliseconds. -/
structure OutboxRow where
  id : String
  member : Member
  actorId : String
  payload : WeekRequest
  base : List WeekDay
  state : OutboxState
  predecessor : Option String
  resultRevision : Option Int
  attemptCount : Nat
  retryAt : Int
  errorCode : Option String
  createdAt : String
  sequence : Nat
  deriving DecidableEq, Repr

/-- The device's tables: who owns the replica, the outbox in the order of `sequence`, and the
`hours_revision` of the staff rows the replica has. -/
structure Device where
  owner : Option String
  deviceId : Option String
  outbox : List OutboxRow
  revisions : Member → Option Int

def rowsOf (rows : List OutboxRow) (m : Member) : List OutboxRow := rows.filter fun r => decide (r.member = m)

def Device.find (d : Device) (id : String) : Option OutboxRow := d.outbox.find? fun r => decide (r.id = id)

/-- `update hours_outbox … where id = ?` -/
def Device.update (d : Device) (id : String) (f : OutboxRow → OutboxRow) : Device :=
  { d with outbox := d.outbox.map fun r => if r.id = id then f r else r }

/-! ## Editing -/

structure HoursEdit where
  member : Member
  revision : Int
  days : List WeekDay
  base : List WeekDay
  repair : Bool
  predecessor : Option (String × WeekRequest)

/-- What `enqueueHours` draws: random ids, and the time. -/
structure Drawn where
  id : String
  deviceId : String
  createdAt : String

def nextSequence (rows : List OutboxRow) : Nat := (rows.map (·.sequence)).max?.getD 0 + 1

/-- The row inserted after `previous`. -/
def HoursEdit.row (e : HoursEdit) (previous : Option OutboxRow) (actorId deviceId : String) (drawn : Drawn)
    (sequence : Nat) : OutboxRow where
  id := drawn.id
  member := e.member
  actorId := actorId
  payload := {
    deviceId := deviceId
    operationId := drawn.id
    businessId := e.member.businessId
    createdAt := drawn.createdAt
    expectedRevision := match previous with
      | some p => p.resultRevision.getD (p.payload.expectedRevision + 1)
      | none => e.revision
    days := e.days }
  base := match previous with
    | some p => p.payload.days
    | none => e.base
  state := .queued
  predecessor := previous.map (·.id)
  resultRevision := none
  attemptCount := 0
  retryAt := 0
  errorCode := none
  createdAt := drawn.createdAt
  sequence := sequence

def OutboxRow.withDays (r : OutboxRow) (days : List WeekDay) : OutboxRow :=
  { r with payload := { r.payload with days := days } }

/-- The rows an edit starts from: a repair drops the member's rows first. -/
def HoursEdit.rows (e : HoursEdit) (d : Device) : List OutboxRow :=
  if e.repair then d.outbox.filter fun r => decide (r.member ≠ e.member) else d.outbox

/-- `enqueueHours`: the row that has the days now.  The editor is told its id, its payload and the
revision after the expected one. -/
def Device.enqueueHours (d : Device) (e : HoursEdit) (drawn : Drawn) : Except String (Device × OutboxRow) :=
  match d.owner with
  | none => .error "missing replica owner"
  | some actorId =>
    if e.repair && (rowsOf d.outbox e.member).any fun r => decide (r.state = .sending) then
      .error "working week is still uploading"
    else
      let d := { d with outbox := e.rows d }
      let deviceId := d.deviceId.getD drawn.deviceId
      match (rowsOf d.outbox e.member).getLast? with
      | none =>
        let row := e.row none actorId deviceId drawn (nextSequence d.outbox)
        .ok ({ d with deviceId := some deviceId, outbox := d.outbox ++ [row] }, row)
      | some previous =>
        if e.predecessor ≠ some (previous.id, previous.payload) then
          .error "working week changed in another editor"
        else if previous.state = .rejected then .error "working week needs review"
        else if previous.state = .queued ∧ previous.attemptCount = 0 then
          .ok (d.update previous.id (·.withDays e.days), previous.withDays e.days)
        else
          let row := e.row (some previous) actorId deviceId drawn (nextSequence d.outbox)
          .ok ({ d with deviceId := some deviceId, outbox := d.outbox ++ [row] }, row)

def Device.discardRejectedHours (d : Device) (m : Member) : Except String Device :=
  if (rowsOf d.outbox m).any (fun r => decide (r.state = .rejected)) = false ∨
      (rowsOf d.outbox m).any (fun r => decide (r.state = .sending)) = true then
    .error "working week is not ready to discard"
  else .ok { d with outbox := d.outbox.filter fun r => decide (r.member ≠ m) }

/-- The members with a rejected row. -/
def Device.rejected (d : Device) : List Member :=
  ((d.outbox.filter fun r => decide (r.state = .rejected)).map (·.member)).dedup

def Device.discardGroup (d : Device) (m : Member) : Except String Device :=
  if (rowsOf d.outbox m).any fun r => decide (r.state = .sending) then .error "working week is still uploading"
  else .ok { d with outbox := d.outbox.filter fun r => decide (r.member ≠ m ∨ r.state = .accepted) }

def Device.discardRejectedQueue (d : Device) : Except String Device := d.rejected.foldlM Device.discardGroup d

/-! ## Uploading -/

/-- An accepted row of a member the replica no longer has. -/
def Device.unseen (d : Device) (now : Int) : Option OutboxRow :=
  d.outbox.find? fun r => decide (r.state = .accepted ∧ d.revisions r.member = none ∧ r.retryAt ≤ now)

def OutboxRow.unlink (r : OutboxRow) (id : String) : OutboxRow :=
  if r.predecessor = some id then { r with predecessor := none } else r

/-- The server says that the member is out of reach. -/
def Device.forget (d : Device) (id : String) : Device :=
  { d with outbox := (d.outbox.map (·.unlink id)).filter fun r => decide ¬(r.id = id ∧ r.state = .accepted) }

/-- Accepted rows whose revision the replica has caught up with. -/
def Device.observed (d : Device) : List (String × Int) :=
  d.outbox.filterMap fun r =>
    match r.resultRevision, d.revisions r.member with
    | some result, some seen => if r.state = .accepted ∧ result ≤ seen then some (r.id, result) else none
    | _, _ => none

def WeekRequest.expect (q : WeekRequest) (revision : Int) : WeekRequest := { q with expectedRevision := revision }

def OutboxRow.release (r : OutboxRow) (parent : String × Int) : OutboxRow :=
  if r.predecessor = some parent.1 then { r with
    predecessor := none
    payload := if r.attemptCount = 0 then r.payload.expect parent.2 else r.payload }
  else r

/-- An observed row goes, and its successors need not wait for it. -/
def Device.settle (d : Device) (parent : String × Int) : Device :=
  { d with outbox := (d.outbox.map (·.release parent)).filter fun r => decide (r.id ≠ parent.1) }

def OutboxRow.mayGo (r : OutboxRow) (d : Device) (now : Int) : Bool :=
  decide ((r.state = .queued ∨ r.state = .sending) ∧ r.retryAt ≤ now) &&
    (decide (r.predecessor = none ∨ 0 < r.attemptCount) ||
      (r.predecessor.bind d.find).any fun p => decide (p.state = .accepted))

def Device.next (d : Device) (now : Int) : Option OutboxRow := d.outbox.find? fun r => r.mayGo d now

/-- What a first attempt expects is what its predecessor came to. -/
def OutboxRow.attempt (r : OutboxRow) (d : Device) (now : Int) : OutboxRow := { r with
  state := .sending
  payload := match r.predecessor.bind fun id => (d.find id).bind (·.resultRevision) with
    | some revision => if r.attemptCount = 0 then r.payload.expect revision else r.payload
    | none => r.payload
  attemptCount := r.attemptCount + 1
  retryAt := now + 20_000 }

/-- The transaction that claims a row. -/
def Device.claim (d : Device) (now : Int) : Device × Option OutboxRow :=
  let d := d.observed.foldl Device.settle d
  match d.next now with
  | none => (d, none)
  | some next => (d.update next.id fun _ => next.attempt d now, some (next.attempt d now))

def OutboxRow.accept (revision : Int) (r : OutboxRow) : OutboxRow :=
  { r with state := .accepted, resultRevision := some revision, errorCode := none }

def OutboxRow.retry (code : String) (retryAt : Int) (r : OutboxRow) : OutboxRow :=
  if r.state = .sending then { r with state := .queued, errorCode := some code, retryAt := retryAt } else r

def OutboxRow.reject (code : String) (r : OutboxRow) : OutboxRow :=
  if r.state ≠ .accepted then { r with state := .rejected, errorCode := some code } else r

/-- Failures that say nothing about the server. -/
def connectionFailures : List String := ["transport", "paused"]

def OutboxRow.retryNow (r : OutboxRow) : OutboxRow :=
  if r.state = .queued ∧ r.errorCode.any (fun c => decide (c ∈ connectionFailures)) then { r with retryAt := 0 } else r

/-! ## Any number of tabs -/

/-- A post of a week, with the user it is made by. -/
structure WeekPost where
  user : String
  member : Member
  body : WeekRequest
  deriving DecidableEq, Repr

/-- What happened so far, on the device and on the server. -/
inductive HoursEvent where
  | stored (r : OutboxRow)
  | discarded (m : Member)
  | claimed (r : OutboxRow)
  | posted (q : WeekPost)
  | accepted (id : String) (revision : Int)
  | applied (q : WeekPost) (revision : Int)
  | answered (q : WeekPost) (revision : Int)
  | changed (m : Member) (revision : Int) (days : List WeekDay)
  deriving DecidableEq

/-- The id of a row that was stored. -/
def HoursEvent.storedId : HoursEvent → Option String
  | .stored r => some r.id
  | _ => none

structure OutboxStore where
  device : Device
  log : List HoursEvent

/-- Where a tab is in `uploadHoursOnce`. -/
inductive UploadPlace where
  | idle
  | unseen (r : OutboxRow)
  | probing (r : OutboxRow)
  | ready
  | claimed (r : OutboxRow)
  | posting (r : OutboxRow) (q : WeekPost)

/-- One step of one tab; `ok` says which revisions the server can have answered a post with. -/
inductive OutboxStep {π : Type} (ok : List HoursEvent → WeekPost → Int → Prop) (p : π) (s : OutboxStore) :
    UploadPlace → OutboxStore → UploadPlace → Prop
  /-- The device draws a new id. -/
  | enqueue {x d r} (e : HoursEdit) (drawn : Drawn) (hnew : ∀ ev ∈ s.log, ev.storedId ≠ some drawn.id)
      (h : s.device.enqueueHours e drawn = .ok (d, r)) : OutboxStep ok p s x ⟨d, s.log ++ [.stored r]⟩ x
  | discardHours {x d} (m : Member) (h : s.device.discardRejectedHours m = .ok d) :
      OutboxStep ok p s x ⟨d, s.log ++ [.discarded m]⟩ x
  | discardQueue {x d} (h : s.device.discardRejectedQueue = .ok d) :
      OutboxStep ok p s x ⟨d, s.log ++ s.device.rejected.map .discarded⟩ x
  | retryNow {x} : OutboxStep ok p s x
      { s with device := { s.device with outbox := s.device.outbox.map OutboxRow.retryNow } } x
  /-- The replica's staff rows change. -/
  | replicate {x} (revisions : Member → Option Int) :
      OutboxStep ok p s x { s with device := { s.device with revisions := revisions } } x
  | pass (now : Int) (h : s.device.unseen now = none) : OutboxStep ok p s .idle s .ready
  | unseen {r} (now : Int) (h : s.device.unseen now = some r) : OutboxStep ok p s .idle s (.unseen r)
  | probe {r} (now : Int) : OutboxStep ok p s (.unseen r)
      { s with device := s.device.update r.id fun r => { r with retryAt := now + 60_000 } } (.probing r)
  | reachable {r} : OutboxStep ok p s (.probing r) s .ready
  | unreachable {r} : OutboxStep ok p s (.probing r) { s with device := s.device.forget r.id } .ready
  | none {d} (now : Int) (h : s.device.claim now = (d, .none)) : OutboxStep ok p s .ready { s with device := d } .idle
  | claim {d r} (now : Int) (h : s.device.claim now = (d, some r)) :
      OutboxStep ok p s .ready ⟨d, s.log ++ [.claimed r]⟩ (.claimed r)
  | post {r} (user : String) : OutboxStep ok p s (.claimed r)
      { s with log := s.log ++ [.posted ⟨user, r.member, r.payload⟩] } (.posting r ⟨user, r.member, r.payload⟩)
  | accept {r q} (revision : Int) (h : ok s.log q revision) : OutboxStep ok p s (.posting r q)
      ⟨s.device.update r.id (OutboxRow.accept revision), s.log ++ [.accepted r.id revision]⟩ .idle
  | retry {r q} (code : String) (retryAt : Int) : OutboxStep ok p s (.posting r q)
      { s with device := s.device.update r.id (OutboxRow.retry code retryAt) } .idle
  | reject {r q} (code : String) : OutboxStep ok p s (.posting r q)
      { s with device := s.device.update r.id (OutboxRow.reject code) } .idle
  /-- A tab closed, or the database failed. -/
  | stop {x} : OutboxStep ok p s x s .idle

end ClientBridge
