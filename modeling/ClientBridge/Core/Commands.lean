import ClientBridge.Library.Interleave

/-!
# Commands

`run_command` runs a mutation once per idempotency key.  A call takes an advisory lock on its
key, reads what is stored under it, and else runs its mutation, its audits and the row of the
key in one transaction; a lost race on that row is read back as the other call's success.
Calls run in any order, one step of one call at a time, and each can fail at any of them.
-/

namespace ClientBridge

open Runs

/-- What a repeated call is recognized by. -/
structure CommandKey where
  businessId : String
  action : String
  key : String
  deriving DecidableEq, Repr

/-- What a call can raise; `e` is what its own mutation raises. -/
inductive CommandError (ε : Type) where
  | keyReused
  | invalidResponse
  | concurrentChange
  | other (e : ε)
  deriving Repr

/-- The code and the text of the errors raised here. -/
def CommandError.text {ε : Type} : CommandError ε → Option (String × String)
  | .keyReused => some ("idempotency_key_reused", "idempotency key was already used with a different request")
  | .concurrentChange => some ("concurrent_change", "another request just made this change")
  | _ => none

/-- Why the database, or the mutation, stopped a transaction. -/
inductive Failure (ε : Type) where
  | writeRace
  | deadlock
  | other (e : ε)

/-- A lost race on a row the mutation writes, and a deadlock, are another request's success. -/
def Failure.error {ε : Type} : Failure ε → CommandError ε
  | .writeRace | .deadlock => .concurrentChange
  | .other e => .other e

/-- A row of the `commands` table. -/
structure CommandRow (η ρ : Type) where
  key : CommandKey
  requestHash : Option η
  response : ρ

/-- What one call committed. -/
structure Commit (π μ α τ : Type) where
  caller : π
  mutation : μ
  audits : List α
  result : τ

/-- One process's call: the key it was given, and its request. -/
structure Call (κ : Type) where
  key : Option CommandKey
  request : κ

/-- What the calls see of the database: the committed rows and mutations, the rows that were
inserted and not yet committed, and the advisory locks. -/
structure CommandStore (π μ α τ η ρ : Type) where
  rows : List (CommandRow η ρ)
  commits : List (Commit π μ α τ)
  inserting : CommandKey → Option π
  locks : Nat → Option π

/-- Where a call is. -/
inductive CallPlace (μ α τ ε : Type) where
  | waiting
  | locked
  | running
  | staged (mutation : μ) (audits : List α) (result : τ)
  | inserted (mutation : μ) (audits : List α) (result : τ)
  | raced
  | returned (result : τ)
  | raised (error : CommandError ε)

section
variable {π μ α τ κ η ρ ε : Type} [DecidableEq π] [DecidableEq η]

/-- What a call does with the world: how a request is hashed, a key is hashed to a lock, and a
response is dumped and read back. -/
structure CommandCodec (κ η ρ τ : Type) where
  requestHash : κ → η
  lockId : CommandKey → Nat
  dump : τ → ρ
  validate : ρ → Option τ

def CommandStore.row (s : CommandStore π μ α τ η ρ) (key : CommandKey) : Option (CommandRow η ρ) :=
  s.rows.find? fun r => decide (r.key = key)

/-- The stored response for a repeated key, refusing a key reused with a different request. -/
def replay (codec : CommandCodec κ η ρ τ) (s : CommandStore π μ α τ η ρ) (key : CommandKey) (request : κ) :
    Except (CommandError ε) (Option ρ) :=
  match s.row key with
  | none => .ok none
  | some prior =>
    if prior.requestHash ≠ none ∧ prior.requestHash ≠ some (codec.requestHash request) then .error .keyReused
    else .ok (some prior.response)

/-- The stored response, read back as the response model. -/
def prior (codec : CommandCodec κ η ρ τ) (s : CommandStore π μ α τ η ρ) (call : Call κ) :
    Except (CommandError ε) (Option τ) :=
  match call.key with
  | none => .ok none
  | some key =>
    match replay codec s key call.request with
    | .error e => .error e
    | .ok none => .ok none
    | .ok (some stored) =>
      match codec.validate stored with
      | none => .error .invalidResponse
      | some result => .ok (some result)

/-- The end of a call's transaction: its locks and what it had inserted are gone. -/
def CommandStore.release (s : CommandStore π μ α τ η ρ) (p : π) : CommandStore π μ α τ η ρ :=
  { s with
    inserting := fun k => if s.inserting k = some p then none else s.inserting k
    locks := fun n => if s.locks n = some p then none else s.locks n }

/-- The row a call remembers its response in. -/
def remembered (codec : CommandCodec κ η ρ τ) (call : Call κ) (result : τ) : List (CommandRow η ρ) :=
  match call.key with
  | none => []
  | some key => [⟨key, some (codec.requestHash call.request), codec.dump result⟩]

/-- The mutation, its audits and the key's row become visible at once. -/
def CommandStore.commit (s : CommandStore π μ α τ η ρ) (codec : CommandCodec κ η ρ τ) (call : Call κ)
    (c : Commit π μ α τ) : CommandStore π μ α τ η ρ :=
  { s with rows := s.rows ++ remembered codec call c.result, commits := s.commits ++ [c] }

/-- One step of one call. -/
inductive CommandStep (codec : CommandCodec κ η ρ τ) (calls : π → Call κ) (p : π)
    (s : CommandStore π μ α τ η ρ) : CallPlace μ α τ ε → CommandStore π μ α τ η ρ → CallPlace μ α τ ε → Prop
  /-- `pg_advisory_xact_lock` waits until no other call holds the lock. -/
  | lock {key} (hk : (calls p).key = some key) (hfree : s.locks (codec.lockId key) = none) :
      CommandStep codec calls p s .waiting
        { s with locks := Function.update s.locks (codec.lockId key) (some p) } .locked
  | unkeyed (hk : (calls p).key = none) : CommandStep codec calls p s .waiting s .running
  | replayed {result} (h : prior (ε := ε) codec s (calls p) = .ok (some result)) :
      CommandStep codec calls p s .locked s (.returned result)
  | refused {e} (h : prior codec s (calls p) = .error e) : CommandStep codec calls p s .locked s (.raised e)
  | fresh (h : prior (ε := ε) codec s (calls p) = .ok none) : CommandStep codec calls p s .locked s .running
  /-- The mutation is the caller's; it can stage anything. -/
  | ran {mutation audits result} :
      CommandStep codec calls p s .running s (.staged mutation audits result)
  /-- An insert waits for a transaction that inserted the same key. -/
  | insert {mutation audits result key} (hk : (calls p).key = some key) (hnew : s.row key = none)
      (hfree : s.inserting key = none) :
      CommandStep codec calls p s (.staged mutation audits result)
        { s with inserting := Function.update s.inserting key (some p) } (.inserted mutation audits result)
  | insertNothing {mutation audits result} (hk : (calls p).key = none) :
      CommandStep codec calls p s (.staged mutation audits result) s (.inserted mutation audits result)
  /-- The key was committed by another call: the insert fails and the transaction is rolled back. -/
  | race {mutation audits result key} (hk : (calls p).key = some key) (hold : (s.row key).isSome) :
      CommandStep codec calls p s (.staged mutation audits result) (s.release p) .raced
  | commit {mutation audits result} :
      CommandStep codec calls p s (.inserted mutation audits result)
        ((s.commit codec (calls p) ⟨p, mutation, audits, result⟩).release p) (.returned result)
  /-- Any error rolls the transaction back. -/
  | fail {x} (hx : x = .running ∨ (∃ m a r, x = .staged m a r) ∨ ∃ m a r, x = .inserted m a r)
      (failure : Failure ε) : CommandStep codec calls p s x (s.release p) (.raised failure.error)
  /-- A call that fails before its transaction, waiting or reading. -/
  | failEarly {x} (hx : x = .waiting ∨ x = .locked ∨ x = .raced) (e : ε) :
      CommandStep codec calls p s x (s.release p) (.raised (.other e))
  | racedReplayed {result} (h : prior (ε := ε) codec s (calls p) = .ok (some result)) :
      CommandStep codec calls p s .raced s (.returned result)
  | racedRefused {e} (h : prior codec s (calls p) = .error e) : CommandStep codec calls p s .raced s (.raised e)
  /-- The unique violation is raised as it was. -/
  | racedLost (h : prior (ε := ε) codec s (calls p) = .ok none) (e : ε) :
      CommandStep codec calls p s .raced s (.raised (.other e))
  /-- The session of a call that is done is closed. -/
  | close {x} (hx : (∃ r, x = .returned r) ∨ ∃ e, x = .raised e) : CommandStep codec calls p s x (s.release p) x

end

end ClientBridge
