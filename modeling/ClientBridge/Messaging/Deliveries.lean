import ClientBridge.Library.Interleave

/-!
# Deliveries

A notice waits in the `deliveries` table.  `dispatch` claims the row in one transaction, calls
the provider outside of any, and writes the outcome in a second transaction, if the row still
has its claim.  A claim lasts five minutes; after that another dispatch marks the row ambiguous.
The provider reports on what it got through `process_email_event`.
-/

namespace ClientBridge

inductive DeliveryState where
  | queued
  | sending
  | accepted
  | delivered
  | failed
  | ambiguous
  deriving DecidableEq, Repr

inductive Channel where
  | email
  | sms
  | push
  deriving DecidableEq, Repr

/-- A row of the `deliveries` table; times are in seconds, `τ` is the type of claims. -/
structure Delivery (τ : Type) where
  id : String
  businessId : Option String
  channel : Channel
  messageId : Option String
  state : DeliveryState
  nextAt : Option Int
  claim : Option τ
  providerRef : Option String
  error : Option String
  createdAt : Int
  deriving DecidableEq, Repr

def lease : Int := 5 * 60

def retryDelay : Int := 60

def retryWindow : Int := 23 * 60 * 60

/-- What a dispatch finds out about the payload and the deployment. -/
structure DispatchInfo where
  now : Int
  prod : Bool
  reserved : Bool
  textsStopped : Bool
  localSink : Bool
  deriving DecidableEq, Repr

inductive DispatchStart where
  | skipped
  | settled (sent : Bool)
  | claimed
  deriving DecidableEq, Repr

variable {τ : Type}

def Delivery.due (d : Delivery τ) (now : Int) : Bool :=
  (decide (d.state = .queued) || decide (d.state = .sending)) && d.nextAt.any fun t => decide (t ≤ now)

def Delivery.settle (d : Delivery τ) (state : DeliveryState) (error : Option String) : Delivery τ :=
  { d with state := state, error := error, nextAt := none }

/-- `dispatch` up to its first commit. -/
def Delivery.begin (d : Delivery τ) (info : DispatchInfo) (claim : τ) : Delivery τ × DispatchStart :=
  if d.due info.now = false then (d, .skipped)
  else if d.state = .sending then
    ({ d.settle .ambiguous (some "lease_expired") with claim := none }, .settled false)
  else if retryWindow ≤ info.now - d.createdAt then
    (d.settle .failed (some "retry_window_expired"), .settled false)
  else if info.reserved && info.prod then (d.settle .failed (some "reserved_address"), .settled false)
  else if d.businessId.isSome && (decide (d.channel = .sms) && info.textsStopped) then
    (d.settle .failed (some "consent_withdrawn"), .settled false)
  else if info.reserved && !info.localSink then (d.settle .accepted none, .settled true)
  else ({ d with state := .sending, claim := some claim, nextAt := some (info.now + lease) }, .claimed)

/-- How a provider's `send` ends. -/
inductive SendResult where
  | sent (reference : Option String)
  | appError (code : String)
  | undelivered (code : String) (retry : Bool)
  | unreachable
  | httpStatus (status : Nat)
  | raised
  deriving DecidableEq, Repr

def SendResult.state : SendResult → DeliveryState
  | .sent _ => .accepted
  | .appError _ => .failed
  | .undelivered _ retry => if retry then .queued else .failed
  | .unreachable => .queued
  | .httpStatus status =>
    if status = 429 then .queued else if 400 ≤ status ∧ status < 500 then .failed else .ambiguous
  | .raised => .ambiguous

def SendResult.error : SendResult → Option String
  | .sent _ => none
  | .appError code => some code
  | .undelivered code _ => some code
  | .unreachable => some "connection_unavailable"
  | .httpStatus status => some s!"provider_http_{status}"
  | .raised => some "delivery_unconfirmed"

def SendResult.reference : SendResult → Option String
  | .sent reference => reference
  | _ => none

variable [DecidableEq τ]

/-- The second transaction of `dispatch`; the flag says that it wrote the row. -/
def Delivery.finish (d : Delivery τ) (claim : τ) (now : Int) (r : SendResult) : Delivery τ × Bool :=
  if d.claim ≠ some claim ∨ d.state ≠ .sending then (d, false)
  else ({ d with
    state := r.state
    error := r.error
    providerRef := r.reference
    nextAt := if r.state = .queued then some (now + retryDelay) else none
    claim := none }, true)

inductive MessageStatus where
  | draft
  | queued
  | sent
  | delivered
  | read
  | failed
  deriving DecidableEq, Repr

structure InboxMessage where
  status : MessageStatus
  providerRef : Option String
  deriving DecidableEq, Repr

/-- `_MESSAGE_STATUS`: an unconfirmed send shows as failed. -/
def messageStatus : DeliveryState → Option MessageStatus
  | .accepted => some .sent
  | .failed | .ambiguous => some .failed
  | _ => none

/-- `_follow`: the inbox message of a text takes its outcome, never undoing a later one. -/
def Delivery.follow (d : Delivery τ) (m : InboxMessage) : InboxMessage :=
  if d.channel ≠ .sms ∨ d.messageId = none ∨ d.businessId = none then m
  else match messageStatus d.state with
    | none => m
    | some status =>
      let earlier : List MessageStatus := if status = .sent then [.queued] else [.queued, .sent]
      if m.status ∈ earlier then ⟨status, m.providerRef.or d.providerRef⟩ else m

/-- A parsed Resend event. -/
structure EmailEvent where
  type : String
  emailId : String
  delivery : Option String
  deriving DecidableEq, Repr

def emailFailures : List String := ["email.bounced", "email.failed", "email.suppressed", "email.complained"]

/-- Whether the event's tag, or else its email id, finds the row. -/
def EmailEvent.finds (e : EmailEvent) (d : Delivery τ) : Bool :=
  match e.delivery with
  | some id => decide (id = d.id)
  | none => decide (e.emailId ≠ "" ∧ d.providerRef = some e.emailId)

/-- The state an event puts the row in. -/
def EmailEvent.state (e : EmailEvent) (d : Delivery τ) : Option DeliveryState :=
  if e.type = "email.delivered" ∧ d.state ≠ .failed then some .delivered
  else if e.type ∈ emailFailures then some .failed
  else if e.type = "email.sent" ∧ d.state ∈ [.queued, .sending, .ambiguous] then some .accepted
  else none

/-- What `process_email_event` does to the row it finds. -/
def Delivery.report (d : Delivery τ) (e : EmailEvent) : Option (Delivery τ) :=
  if d.channel = .email ∧ (d.providerRef = none ∨ d.providerRef = some e.emailId) then
    (e.state d).map fun state => { d with
      state := state
      error := if state = .failed then some e.type else none
      providerRef := if e.emailId = "" then d.providerRef else some e.emailId
      nextAt := none
      claim := none }
  else none

/-- A row as `enqueue` inserts it. -/
def Delivery.enqueued (id : String) (businessId : Option String) (channel : Channel) (messageId : Option String)
    (now : Int) : Delivery τ :=
  ⟨id, businessId, channel, messageId, .queued, some now, none, none, none, now⟩

/-- What happened to the sends of a delivery, each named by its claim. -/
inductive SendEvent (τ : Type) where
  | started (claim : τ)
  /-- The row took this state as the outcome of that send, or with no send claimed yet. -/
  | outcome (claim : Option τ) (state : DeliveryState)
  deriving DecidableEq, Repr

/-- The row, its inbox message and the Resend events seen; `issued` says who drew a claim, `last`
is the last one the row had, and `log` what happened so far. -/
structure DeliveryStore (π τ : Type) where
  row : Delivery τ
  message : InboxMessage
  webhooks : List String
  issued : τ → Option π
  last : Option τ
  log : List (SendEvent τ)

/-- Where a worker is in a `dispatch`. -/
inductive DispatchPlace (τ : Type) where
  | idle
  | claimed (claim : τ)
  | sending (claim : τ)
  | answered (claim : τ) (result : SendResult)

def DispatchPlace.claim : DispatchPlace τ → Option τ
  | .idle => none
  | .claimed c | .sending c | .answered c _ => some c

section
variable {π : Type}

/-- The row after a transaction that recorded a state as the outcome of `claim`. -/
def DeliveryStore.record (s : DeliveryStore π τ) (claim : Option τ) (d : Delivery τ) : DeliveryStore π τ :=
  { s with row := d, message := d.follow s.message, log := s.log ++ [.outcome claim d.state] }

/-- One step of one worker: a transaction, a provider call's start or end, or a crash. -/
inductive DeliveryStep (p : π) (s : DeliveryStore π τ) : DispatchPlace τ → DeliveryStore π τ → DispatchPlace τ → Prop
  | settle {d sent} (info : DispatchInfo) (c : τ) (h : s.row.begin info c = (d, .settled sent)) :
      DeliveryStep p s .idle (s.record s.row.claim d) .idle
  /-- The claim is a new random token. -/
  | claim {d} (info : DispatchInfo) (c : τ) (hc : s.issued c = none) (h : s.row.begin info c = (d, .claimed)) :
      DeliveryStep p s .idle { s with row := d, issued := Function.update s.issued c (some p), last := some c }
        (.claimed c)
  | start (c : τ) : DeliveryStep p s (.claimed c) { s with log := s.log ++ [.started c] } (.sending c)
  | answer (c : τ) (r : SendResult) : DeliveryStep p s (.sending c) s (.answered c r)
  | finish {d} (c : τ) (r : SendResult) (now : Int) (h : s.row.finish c now r = (d, true)) :
      DeliveryStep p s (.answered c r) (s.record (some c) d) .idle
  | lost (c : τ) (r : SendResult) (now : Int) (h : (s.row.finish c now r).2 = false) :
      DeliveryStep p s (.answered c r) { s with row := (s.row.finish c now r).1 } .idle
  /-- An event not seen before is kept with what it changed. -/
  | report {d} (svixId : String) (e : EmailEvent) (hnew : svixId ∉ s.webhooks) (hfinds : e.finds s.row)
      (h : s.row.report e = some d) :
      DeliveryStep p s .idle { s with
        row := d
        webhooks := svixId :: s.webhooks
        log := s.log ++ [.outcome s.last d.state] } .idle
  | unreported (svixId : String) (hnew : svixId ∉ s.webhooks) :
      DeliveryStep p s .idle { s with webhooks := svixId :: s.webhooks } .idle
  | crash (x : DispatchPlace τ) : DeliveryStep p s x s .idle

end

end ClientBridge
