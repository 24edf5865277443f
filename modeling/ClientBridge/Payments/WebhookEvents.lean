import ClientBridge.Library.Interleave

/-!
# Webhook events

`apply_stripe_event` applies a Stripe event once.  A delivery or a replay reads the event's row
in `webhooks`, locking it when it is there, and then runs the handler and marks the row
processed in one transaction.  A call that found no row inserts one in that same transaction,
and takes a conflict on it for another call's success.  A call that raised keeps a failed row
in a transaction of its own (`_keep_unapplied`).
-/

namespace ClientBridge

open Runs

inductive WebhookStatus where
  | pending | processed | failed
  deriving DecidableEq, Repr

/-- A row of the `webhooks` table; `β` is the type of event bodies. -/
structure Webhook (β : Type) where
  event : String
  payload : Option β
  status : WebhookStatus
  deriving DecidableEq, Repr

structure GatewayEvent (β : Type) where
  type : String
  data : β
  thin : Bool
  apiVersion : Option String

def stripeApiVersion : String := "2026-09-30.endive"

/-- Whether the handlers parse an event of this version. -/
def GatewayEvent.accepted {β : Type} (e : GatewayEvent β) : Prop :=
  e.thin = true ∨ e.apiVersion = some stripeApiVersion

instance {β : Type} (e : GatewayEvent β) : Decidable e.accepted := inferInstanceAs (Decidable (_ ∨ _))

/-- What a call can raise: the version it refuses, `retry_later`, or what its handler raised. -/
inductive WebhookError where
  | version (apiVersion : Option String)
  | retryLater
  | other
  deriving DecidableEq, Repr

/-- What the calls see of the database: the committed row of one event id, the call whose open
transaction locked or inserted it, and the calls whose handler's effects are committed. -/
structure WebhookStore (π β : Type) where
  row : Option (Webhook β)
  holder : Option π
  effects : List π

/-- Where a call is. -/
inductive WebhookPlace where
  | waiting
  /-- It found no row; its own is not inserted yet. -/
  | fresh
  | inserting
  /-- Its transaction holds the row, locked or inserted. -/
  | held
  /-- It rolled back. -/
  | keeping (error : WebhookError)
  | returned
  | raised (error : WebhookError)
  deriving DecidableEq, Repr

variable {π β : Type}

/-- `_keep_unapplied`: the event is held with its payload unless it is processed. -/
def keepUnapplied (e : GatewayEvent β) : Option (Webhook β) → Webhook β
  | none => ⟨e.type, some e.data, .failed⟩
  | some row => if row.status ≠ .processed then { row with status := .failed } else row

/-- The row as the handler's transaction commits it. -/
def Webhook.process (e : GatewayEvent β) : Option (Webhook β) → Webhook β
  | none => ⟨e.type, none, .processed⟩
  | some row => { row with status := .processed, payload := none }

variable [DecidableEq π]

/-- The end of a call's transaction. -/
def WebhookStore.release (s : WebhookStore π β) (p : π) : WebhookStore π β :=
  { s with holder := if s.holder = some p then none else s.holder }

/-- One step of one call.  The handler's own steps change nothing others see before they commit. -/
inductive WebhookStep (events : π → GatewayEvent β) (p : π) (s : WebhookStore π β) :
    WebhookPlace → WebhookStore π β → WebhookPlace → Prop
  | reject (hv : ¬(events p).accepted) :
      WebhookStep events p s .waiting s (.keeping (.version (events p).apiVersion))
  /-- A row that is not committed is not seen, and nothing is locked. -/
  | readNone (hv : (events p).accepted) (hrow : s.row = none) : WebhookStep events p s .waiting s .fresh
  /-- `FOR UPDATE` waits until no other transaction holds the row. -/
  | readFailed {row} (hv : (events p).accepted) (hfree : s.holder = none) (hrow : s.row = some row)
      (hs : row.status = .failed) : WebhookStep events p s .waiting { s with holder := some p } .held
  | readDone {row} (hv : (events p).accepted) (hfree : s.holder = none) (hrow : s.row = some row)
      (hs : row.status ≠ .failed) : WebhookStep events p s .waiting s .returned
  /-- The new row goes out with the handler's first query, or at the commit. -/
  | flush : WebhookStep events p s .fresh s .inserting
  /-- The insert waits for another call's uncommitted one. -/
  | insert (hfree : s.holder = none) (hrow : s.row = none) :
      WebhookStep events p s .inserting { s with holder := some p } .held
  /-- `_lost_event_race`: the primary key is taken. -/
  | lost {row} (hrow : s.row = some row) : WebhookStep events p s .inserting s .returned
  | failFresh (retry : Bool) :
      WebhookStep events p s .fresh s (.keeping (if retry then .retryLater else .other))
  | failHeld (retry : Bool) :
      WebhookStep events p s .held (s.release p) (.keeping (if retry then .retryLater else .other))
  | commit : WebhookStep events p s .held
      { s.release p with row := some (Webhook.process (events p) s.row), effects := s.effects ++ [p] } .returned
  /-- `ON CONFLICT` waits for a transaction that holds the row. -/
  | keep {error} (hfree : s.holder = none) : WebhookStep events p s (.keeping error)
      { s with row := some (keepUnapplied (events p) s.row) } (.raised error)

/-- A call is about to insert the row of an event that a failed row was kept for meanwhile. -/
def Overtaken (w : World π (WebhookStore π β) WebhookPlace) (p : π) : Prop :=
  w.place p = .inserting ∧ ∃ row, w.store.row = some row ∧ row.status = .failed

/-- A step that is not taken by an overtaken call. -/
def InTime (events : π → GatewayEvent β) (w : World π (WebhookStore π β) WebhookPlace) (p : π)
    (w' : World π (WebhookStore π β) WebhookPlace) : Prop :=
  Interleaved (WebhookStep events) w p w' ∧ ¬Overtaken w p

def webhookStart : World π (WebhookStore π β) WebhookPlace := ⟨⟨none, none, []⟩, fun _ => .waiting⟩

end ClientBridge
