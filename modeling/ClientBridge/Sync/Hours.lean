import ClientBridge.Sync.OutboxRuns

/-!
# Working weeks on the server

`HoursService.replace` puts a member's week in place if the post expects the week's revision, and
keeps a receipt of the operation; a post with a receipt is answered with what it came to the first
time.  Receipts are pruned in the end.  `SyncStep` is a device, any posts of which may be lost,
late or repeated, and the server, where others change weeks too.
-/

namespace ClientBridge

open Runs

/-- A row of `sync_receipts`; the hash of a request is taken for the request. -/
structure HoursReceipt where
  user : String
  deviceId : String
  operationId : String
  member : Member
  body : WeekRequest
  result : Int
  deriving DecidableEq, Repr

/-- `staff.hours_revision`, the recurring `hours` rows, and the receipts. -/
structure HoursServer where
  revision : Member → Int
  week : Member → List WeekDay
  receipts : List HoursReceipt

def HoursServer.receipt (s : HoursServer) (q : WeekPost) : Option HoursReceipt :=
  s.receipts.find? fun rc =>
    decide (rc.user = q.user ∧ rc.deviceId = q.body.deviceId ∧ rc.operationId = q.body.operationId)

def HoursServer.put (s : HoursServer) (m : Member) (days : List WeekDay) : HoursServer :=
  { s with
    revision := Function.update s.revision m (s.revision m + 1)
    week := Function.update s.week m days }

/-- How `replace` answers: with a revision, and whether it changed the week. -/
structure HoursAnswer where
  revision : Int
  applied : Bool
  deriving DecidableEq, Repr

/-- `HoursService.replace`, with `reserve_receipt`; the error is its text and its code. -/
def HoursServer.replace (s : HoursServer) (q : WeekPost) : Except (String × String) (HoursServer × HoursAnswer) :=
  if q.body.businessId ≠ q.member.businessId then .error ("working week belongs to another business", "forbidden")
  else match s.receipt q with
    | some rc =>
      if rc.member = q.member ∧ rc.body = q.body then .ok (s, ⟨rc.result, false⟩)
      else .error ("upload identity was reused with different content", "upload_mismatch")
    | none =>
      if s.revision q.member ≠ q.body.expectedRevision then
        .error ("working week changed on another device", "hours_revision_conflict")
      else
        let receipt := ⟨q.user, q.body.deviceId, q.body.operationId, q.member, q.body, q.body.expectedRevision + 1⟩
        .ok ({ s.put q.member q.body.days with receipts := s.receipts ++ [receipt] },
          ⟨s.revision q.member + 1, true⟩)

/-- A device and the server. -/
structure SyncStore where
  device : Device
  server : HoursServer
  log : List HoursEvent

def SyncStore.outbox (s : SyncStore) : OutboxStore := ⟨s.device, s.log⟩

/-- A revision a post was answered with. -/
def Answered (log : List HoursEvent) (q : WeekPost) (v : Int) : Prop := .answered q v ∈ log

/-- One step of a tab, or of the server; what the server refuses leaves no trace there. -/
inductive SyncStep {π : Type} (p : π) (s : SyncStore) : UploadPlace → SyncStore → UploadPlace → Prop
  | device {x o x'} (h : OutboxStep Answered p s.outbox x o x') :
      SyncStep p s x ⟨o.device, s.server, o.log⟩ x'
  /-- The server gets to a post, for the first time or again. -/
  | serve {x q t a} (hq : .posted q ∈ s.log) (h : s.server.replace q = .ok (t, a)) :
      SyncStep p s x ⟨s.device, t,
        s.log ++ (if a.applied then [.applied q a.revision] else []) ++ [.answered q a.revision]⟩ x
  /-- Another device, or a person in the office, changes a week. -/
  | other {x} (m : Member) (days : List WeekDay) :
      SyncStep p s x ⟨s.device, s.server.put m days, s.log ++ [.changed m (s.server.revision m + 1) days]⟩ x
  | prune {x} (keep : HoursReceipt → Bool) :
      SyncStep p s x { s with server := { s.server with receipts := s.server.receipts.filter keep } } x

/-- The weeks a member had, by their revisions. -/
def weekChanges (log : List HoursEvent) (m : Member) : List (Int × List WeekDay) :=
  log.filterMap fun e => match e with
    | .applied q v => if q.member = m then some (v, q.body.days) else none
    | .changed m' v days => if m' = m then some (v, days) else none
    | _ => none

end ClientBridge
