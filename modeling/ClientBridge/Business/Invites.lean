import ClientBridge.Ledger.Journals
import ClientBridge.Library.Interleave

/-!
# Invites and seats

A business has a row in `staff` for each member and each open invite.  An invite is accepted by
turning its row into the member, or by taking back the row of a member who left; revoking it
deletes the row.  Creating, resending and accepting take the business's lock and count its seats
under it (`assert_seat_free`), but the invite's own row is read before the lock, and a revoke
takes none.  Invites expire with time.
-/

namespace ClientBridge

open Runs

inductive StaffRole where
  | owner | admin | staff
  deriving DecidableEq, Repr

inductive StaffStatus where
  | invited | active | removed
  deriving DecidableEq, Repr

/-- A row of `staff`; `invitedAt` is its creation where it has no other time. -/
structure StaffRow where
  id : Id
  role : StaffRole
  status : StaffStatus
  userId : Option Id
  inviteToken : Option String
  invitedAt : Int
  deriving DecidableEq, Repr

/-- Seven days, in microseconds. -/
def inviteTtl : Int := 7 * 24 * 60 * 60 * 1000000

/-- Whether a row takes a seat; an invite does until it expires. -/
def StaffRow.billed (r : StaffRow) (now : Int) : Bool :=
  decide (r.role ≠ .owner ∧ (r.status = .active ∨ (r.status = .invited ∧ now - inviteTtl < r.invitedAt)))

/-- Whether `_pending` finds an invite expired. -/
def StaffRow.expired (r : StaffRow) (now : Int) : Bool := decide (r.invitedAt + inviteTtl < now)

/-- Members besides the owner and invites, of all rows but one's (`billed_seats`). -/
def billedSeats (rows : List StaffRow) (now : Int) (excluding : Option Id) : Nat :=
  rows.countP fun r => r.billed now && decide (excluding ≠ some r.id)

/-- An invite that was accepted or revoked, with the row that the table held for it then. -/
inductive InviteEvent where
  | accepted (invite member : Id) (found : Option StaffRow) (time : Int)
  | revoked (invite : Id) (found : Option StaffRow)
  deriving DecidableEq, Repr

/-- The rows, the ids that were given out, the business's lock and the time. -/
structure StaffStore (π : Type) where
  rows : List StaffRow
  ids : List Id
  lock : Option π
  clock : Int
  log : List InviteEvent

namespace StaffStore

variable {π : Type}

def row (s : StaffStore π) (id : Id) : Option StaffRow := s.rows.find? fun r => decide (r.id = id)

/-- The row of a user in the business. -/
def memberOf (s : StaffStore π) (user : Id) : Option StaffRow := s.rows.find? fun r => decide (r.userId = some user)

def addRow (s : StaffStore π) (r : StaffRow) : StaffStore π := { s with rows := s.rows ++ [r], ids := r.id :: s.ids }

def setRow (s : StaffStore π) (id : Id) (f : StaffRow → StaffRow) : StaffStore π :=
  { s with rows := s.rows.map fun r => if r.id = id then f r else r }

/-- A delete; rows that are not there are not missed. -/
def deleteRow (s : StaffStore π) (id : Id) : StaffStore π :=
  { s with rows := s.rows.filter fun r => decide (r.id ≠ id) }

def note (s : StaffStore π) (e : InviteEvent) : StaffStore π := { s with log := s.log ++ [e], lock := none }

end StaffStore

/-- A command that counts seats, with what it read: the invite, who accepts it, the row that user
has from before, the invite's role, and the time at which `_pending` found it open. -/
inductive InviteCommand where
  | create (role : StaffRole) (token : String)
  | resend (invite : Id) (token : String)
  | accept (invite user : Id) (member : Option Id) (role : StaffRole) (readAt : Int)
  deriving DecidableEq, Repr

/-- The row that the seat count leaves out. -/
def InviteCommand.member : InviteCommand → Option Id
  | .create _ _ => none
  | .resend invite _ => some invite
  | .accept invite _ _ _ _ => some invite

inductive InvitePlace where
  | idle
  | read (c : InviteCommand)
  | locked (c : InviteCommand)
  | checked (c : InviteCommand)
  | revoking (invite : Id)
  | removing (member : Id)
  deriving DecidableEq, Repr

/-- One step of a command, or time passes. -/
inductive InviteStep {π : Type} [DecidableEq π] (cap : Nat) (p : π) :
    StaffStore π → InvitePlace → StaffStore π → InvitePlace → Prop
  | tick {s now} (h : s.clock ≤ now) : InviteStep cap p s .idle { s with clock := now } .idle
  | create {s role token} (hr : role ≠ .owner) : InviteStep cap p s .idle s (.read (.create role token))
  /-- `_invite`. -/
  | resend {s invite r token} (hr : s.row invite = some r) (hs : r.status = .invited) :
      InviteStep cap p s .idle s (.read (.resend invite token))
  /-- `_pending`, and the user's own row. -/
  | accept {s invite r user} (hr : s.row invite = some r) (hs : r.status = .invited) (he : r.expired s.clock = false)
      (hm : ∀ m, s.memberOf user = some m → m.status ≠ .active) :
      InviteStep cap p s .idle s (.read (.accept invite user ((s.memberOf user).map (·.id)) r.role s.clock))
  | lock {s c} (hl : s.lock = none) : InviteStep cap p s (.read c) { s with lock := some p } (.locked c)
  | check {s c} (h : billedSeats s.rows s.clock c.member + 1 ≤ cap) : InviteStep cap p s (.locked c) s (.checked c)
  | created {s role token id} (h : id ∉ s.ids) :
      InviteStep cap p s (.checked (.create role token))
        { s.addRow ⟨id, role, .invited, none, some token, s.clock⟩ with lock := none } .idle
  | resent {s invite token r} (hr : s.row invite = some r) :
      InviteStep cap p s (.checked (.resend invite token))
        { s.setRow invite fun r => { r with inviteToken := some token, invitedAt := s.clock } with lock := none } .idle
  /-- The invite becomes the member. -/
  | joined {s invite user role readAt r} (hr : s.row invite = some r)
      (hu : ∀ r' ∈ s.rows, r'.userId = some user → r'.id = invite) :
      InviteStep cap p s (.checked (.accept invite user none role readAt))
        ((s.setRow invite fun r => { r with userId := some user, status := .active }).note
          (.accepted invite invite (s.row invite) s.clock)) .idle
  /-- The user's row from before is taken back. -/
  | rejoined {s invite user m role readAt r} (hm : s.row m = some r) :
      InviteStep cap p s (.checked (.accept invite user (some m) role readAt))
        (((s.setRow m fun r => { r with role := role, status := .active }).deleteRow invite).note
          (.accepted invite m (s.row invite) s.clock)) .idle
  | revoke {s invite r} (hr : s.row invite = some r) (hs : r.status = .invited) :
      InviteStep cap p s .idle s (.revoking invite)
  | revoked {s invite} :
      InviteStep cap p s (.revoking invite)
        { s.deleteRow invite with log := s.log ++ [.revoked invite (s.row invite)] } .idle
  | remove {s id r} (hr : s.row id = some r) (hs : r.status = .active) (ho : r.role ≠ .owner) :
      InviteStep cap p s .idle s (.removing id)
  | removed {s id r} (hr : s.row id = some r) :
      InviteStep cap p s (.removing id) (s.setRow id fun r => { r with status := .removed }) .idle
  | rollback {s x} : InviteStep cap p s x { s with lock := if s.lock = some p then none else s.lock } .idle

/-! ## Exclusive accepts and revokes -/

/-- Whether a command has read this invite to accept it. -/
def InvitePlace.accepts (x : InvitePlace) (invite : Id) : Prop :=
  match x with
  | .read (.accept i _ _ _ _) => i = invite
  | .locked (.accept i _ _ _ _) => i = invite
  | .checked (.accept i _ _ _ _) => i = invite
  | _ => False

/-- Whether a command read this invite at this time to accept it. -/
def InvitePlace.acceptsSince (x : InvitePlace) (invite : Id) (time : Int) : Prop :=
  match x with
  | .read (.accept i _ _ _ readAt) => i = invite ∧ readAt = time
  | .locked (.accept i _ _ _ readAt) => i = invite ∧ readAt = time
  | .checked (.accept i _ _ _ readAt) => i = invite ∧ readAt = time
  | _ => False

/-- An accept or a revoke that commits does so while no other accept of its invite, and for an
accept no revoke of it, has read the invite, and no invite expires between its accept's read and
its commit. -/
def Exclusive {π : Type} (w : World π (StaffStore π) InvitePlace) (p : π) (w' : World π (StaffStore π) InvitePlace) : Prop :=
  w'.store.log ≠ w.store.log →
    (∀ invite, (w.place p).accepts invite → ∀ q, q ≠ p → ¬(w.place q).accepts invite ∧ w.place q ≠ .revoking invite) ∧
    (∀ invite, w.place p = .revoking invite → ∀ q, q ≠ p → ¬(w.place q).accepts invite) ∧
    ∀ invite time, (w.place p).acceptsSince invite time → ∀ r, w.store.row invite = some r →
      r.expired time = false → r.expired w.store.clock = false

/-- What an accept takes up is an open invite, and what a revoke deletes is no member. -/
def InviteEvent.Sound : InviteEvent → Prop
  | .accepted _ _ found time => ∃ r, found = some r ∧ r.status = .invited ∧ r.expired time = false
  | .revoked _ found => ∀ r, found = some r → r.status = .invited

end ClientBridge
