import ClientBridge.Library.Runs

/-!
# Upload receipts

A device that never saw the answer to an upload sends it again.  `reserve_receipt` keeps a row
for each operation and answers a repeated one with what it came to the first time; an upload the
device made before the retry horizon is refused.  `run_prune_receipts` deletes old rows.  The
horizon is counted from the device's time, the retention from the server's.
-/

namespace ClientBridge

open Runs

/-- Microseconds. -/
def days (n : Int) : Int := n * 24 * 60 * 60 * 1000000

def retryHorizon : Int := days 90

/-- Kept a day past the horizon. -/
def receiptRetention : Int := retryHorizon + days 1

structure OperationIdentity where
  version : Nat
  deviceId : String
  operationId : String
  businessId : String
  createdAt : Int
  deriving DecidableEq, Repr

/-- A row of `sync_receipts`; `η` is the type of payload hashes, `ρ` of results. -/
structure SyncReceipt (η ρ : Type) where
  id : Nat
  userId : String
  deviceId : String
  operationId : String
  businessId : String
  payloadHash : η
  version : Nat
  result : ρ
  createdAt : Int
  deriving DecidableEq, Repr

/-- One upload as it reaches `reserve_receipt`. -/
structure Upload (η ρ : Type) where
  request : OperationIdentity
  payloadHash : η
  result : ρ
  userId : String
  deriving DecidableEq, Repr

inductive ReceiptError where
  | uploadExpired | notMember | uploadMismatch
  deriving DecidableEq, Repr

/-- The code and the text of the errors. -/
def ReceiptError.text : ReceiptError → String × String
  | .uploadExpired => ("upload_expired", "upload is outside the 90-day retry horizon")
  | .notMember => ("forbidden", "not a member of that business")
  | .uploadMismatch => ("upload_mismatch", "upload identity was reused with different content")

/-- The receipts, the active members as pairs of business and user, and the server's time. -/
structure ReceiptServer (η ρ : Type) where
  receipts : List (SyncReceipt η ρ)
  members : List (String × String)
  clock : Int

variable {η ρ : Type} [DecidableEq η]

/-- Whether a row is of this operation (`uq_sync_receipt_operation`). -/
def SyncReceipt.isFor (r : SyncReceipt η ρ) (q : Upload η ρ) : Bool :=
  decide (r.userId = q.userId ∧ r.deviceId = q.request.deviceId ∧ r.operationId = q.request.operationId)

/-- The order in which old rows go. -/
def SyncReceipt.before (r r' : SyncReceipt η ρ) : Prop :=
  r.createdAt < r'.createdAt ∨ (r.createdAt = r'.createdAt ∧ r.id ≤ r'.id)

instance : DecidableRel (@SyncReceipt.before η ρ) := fun _ _ => inferInstanceAs (Decidable (_ ∨ _))

namespace ReceiptServer

def find (s : ReceiptServer η ρ) (q : Upload η ρ) : Option (SyncReceipt η ρ) := s.receipts.find? (·.isFor q)

/-- `reserve_receipt` at `now`, in a transaction that began at `began`; without a result the
operation is new, and its row is there. -/
def reserve (s : ReceiptServer η ρ) (began now : Int) (newId : Nat) (q : Upload η ρ) :
    Except ReceiptError (ReceiptServer η ρ × Option ρ) :=
  if min q.request.createdAt now < now - retryHorizon then .error .uploadExpired
  else if (q.request.businessId, q.userId) ∉ s.members then .error .notMember
  else match s.find q with
    | none =>
      .ok ({ s with receipts := s.receipts ++ [⟨newId, q.userId, q.request.deviceId, q.request.operationId,
        q.request.businessId, q.payloadHash, q.request.version, q.result, began⟩] }, none)
    | some r =>
      if r.businessId = q.request.businessId ∧ r.payloadHash = q.payloadHash then .ok (s, some r.result)
      else .error .uploadMismatch

/-- The rows a prune deletes: the oldest thousand past the retention that nobody has locked. -/
def prunable (s : ReceiptServer η ρ) (now : Int) (locked : SyncReceipt η ρ → Bool) : List (SyncReceipt η ρ) :=
  ((s.receipts.filter fun r => decide (r.createdAt < now - receiptRetention) && !locked r).insertionSort
    SyncReceipt.before).take 1000

/-- `run_prune_receipts`. -/
def prune [DecidableEq ρ] (s : ReceiptServer η ρ) (now : Int) (locked : SyncReceipt η ρ → Bool) : ReceiptServer η ρ :=
  { s with receipts := s.receipts.filter fun r => decide (r ∉ s.prunable now locked) }

end ReceiptServer

inductive ReceiptEvent (η ρ : Type) where
  | upload (q : Upload η ρ)
  | prune

/-- Uploads that are accepted, and prunes, as the server's time goes on. -/
inductive ReceiptStep [DecidableEq ρ] (s : ReceiptServer η ρ) : ReceiptEvent η ρ → ReceiptServer η ρ → Prop
  | upload {q : Upload η ρ} {began now : Int} (hb : began ≤ now) (hn : s.clock ≤ now) {newId : Nat}
      {t : ReceiptServer η ρ} {a : Option ρ} (h : s.reserve began now newId q = .ok (t, a)) :
      ReceiptStep s (.upload q) { t with clock := now }
  | prune {now : Int} (hn : s.clock ≤ now) (locked : SyncReceipt η ρ → Bool) :
      ReceiptStep s .prune { s.prune now locked with clock := now }

/-! ## A receipt's life -/

section
variable [DecidableEq ρ] {s t : ReceiptServer η ρ} {q : Upload η ρ} {r : SyncReceipt η ρ}

theorem find?_filter_of_find? {α : Type} {p c : α → Bool} {l : List α} {x : α} (h : l.find? p = some x)
    (hx : c x = true) : (l.filter c).find? p = some x := by
  induction l with
  | nil => cases h
  | cons y l ih =>
    by_cases hy : p y = true
    · rw [List.find?_cons_of_pos hy] at h
      cases h
      rw [List.filter_cons_of_pos hx, List.find?_cons_of_pos hy]
    · rw [List.find?_cons_of_neg hy] at h
      by_cases hc : c y = true
      · rw [List.filter_cons_of_pos hc, List.find?_cons_of_neg hy, ih h]
      · rw [List.filter_cons_of_neg hc, ih h]

omit [DecidableEq ρ] in
/-- What `reserve_receipt` does with an upload it takes: its row is made, or found. -/
theorem ReceiptServer.reserve_ok {began now : Int} {newId : Nat} {a : Option ρ}
    (h : s.reserve began now newId q = .ok (t, a)) :
    now - retryHorizon ≤ min q.request.createdAt now ∧ (q.request.businessId, q.userId) ∈ s.members ∧
    ((s.find q = none ∧ a = none ∧ t = { s with receipts := s.receipts ++ [⟨newId, q.userId, q.request.deviceId,
        q.request.operationId, q.request.businessId, q.payloadHash, q.request.version, q.result, began⟩] }) ∨
      ∃ r, s.find q = some r ∧ r.businessId = q.request.businessId ∧ r.payloadHash = q.payloadHash ∧
        a = some r.result ∧ t = s) := by
  unfold reserve at h
  split at h
  · cases h
  · next hnow =>
    split at h
    · cases h
    · next hm =>
      refine ⟨by omega, not_not.1 hm, ?_⟩
      split at h
      · next hf =>
        cases h
        exact .inl ⟨hf, rfl, rfl⟩
      · next r hf =>
        split at h
        · next hr =>
          cases h
          exact .inr ⟨r, hf, hr.1, hr.2, rfl, rfl⟩
        · cases h

omit [DecidableEq η] [DecidableEq ρ] in
theorem ReceiptServer.mem_prunable {now : Int} {locked : SyncReceipt η ρ → Bool} (h : r ∈ s.prunable now locked) :
    r.createdAt < now - receiptRetention := by
  have hm := List.mem_of_mem_take h
  rw [List.mem_insertionSort, List.mem_filter, Bool.and_eq_true, decide_eq_true_eq] at hm
  exact hm.2.1

/-- A row is found again until it is past the retention; nobody's membership changes. -/
structure Retains (q : Upload η ρ) (r : SyncReceipt η ρ) (s : ReceiptServer η ρ) : Prop where
  found : s.find q = some r ∨ r.createdAt + receiptRetention < s.clock
  member : (q.request.businessId, q.userId) ∈ s.members

theorem Retains.step {e : ReceiptEvent η ρ} (h : Retains q r s) (hs : ReceiptStep s e t) : Retains q r t := by
  cases hs with
  | @upload q' began now hb hn newId t a ho =>
    obtain ⟨-, -, ⟨-, -, rfl⟩ | ⟨r', -, -, -, -, rfl⟩⟩ := ReceiptServer.reserve_ok ho
    · refine ⟨h.found.imp (fun hf => ?_) fun hf => by show _ < now; omega, h.member⟩
      show (s.receipts ++ _).find? _ = some r
      rw [List.find?_append, show s.receipts.find? (·.isFor q) = some r from hf]
      rfl
    · exact ⟨h.found.imp id fun hf => by show _ < now; omega, h.member⟩
  | @prune now hn locked =>
    refine ⟨?_, h.member⟩
    obtain hf | hf := h.found
    · by_cases hr : r ∈ s.prunable now locked
      · right
        have := ReceiptServer.mem_prunable hr
        show r.createdAt + receiptRetention < now
        omega
      · left
        exact find?_filter_of_find? hf (by simpa using hr)
    · right
      show r.createdAt + receiptRetention < now
      omega

theorem Retains.run {es : List (ReceiptEvent η ρ)} (hr : Run ReceiptStep s es t) (h : Retains q r s) : Retains q r t :=
  hr.invariant (fun _ _ _ h hs => h.step hs) h

/-! ## Retries -/

/-- Every later retry of an upload is refused as too old, or answered with the first result. -/
def AnswersRetries (s : ReceiptServer η ρ) (q : Upload η ρ) : Prop :=
  ∀ es t began now newId, Run ReceiptStep s es t → t.clock ≤ now →
    t.reserve began now newId q = .error .uploadExpired ∨ t.reserve began now newId q = .ok (t, some q.result)

omit [DecidableEq ρ] in
/-- The row of a new operation. -/
theorem ReceiptServer.reserve_new {began now : Int} {newId : Nat} (h : s.reserve began now newId q = .ok (t, none)) :
    now - retryHorizon ≤ q.request.createdAt ∧ (q.request.businessId, q.userId) ∈ s.members ∧ t.members = s.members ∧
    s.find q = none ∧ ∃ r : SyncReceipt η ρ, t.receipts = s.receipts ++ [r] ∧ r.isFor q = true ∧ r.createdAt = began ∧
      r.businessId = q.request.businessId ∧ r.payloadHash = q.payloadHash ∧ r.result = q.result := by
  obtain ⟨hnow, hm, ⟨hf, -, rfl⟩ | ⟨r, -, -, -, ha, -⟩⟩ := ReceiptServer.reserve_ok h
  · exact ⟨by omega, hm, rfl, hf, _, rfl, by simp [SyncReceipt.isFor], rfl, rfl, rfl, rfl⟩
  · cases ha

theorem answersRetries_of_le {began now : Int} {newId : Nat} (h : s.reserve began now newId q = .ok (t, none))
    (hd : q.request.createdAt ≤ began + days 1) : AnswersRetries { t with clock := now } q := by
  obtain ⟨-, hm, hmem, hf, r, hrows, hfor, hat, hbiz, hhash, hres⟩ := ReceiptServer.reserve_new h
  have hfound : t.find q = some r := by
    unfold ReceiptServer.find at hf ⊢
    rw [hrows, List.find?_append, hf, Option.none_or, List.find?_singleton, if_pos hfor]
  have hstart : Retains q r { t with clock := now } := ⟨.inl hfound, by rw [← hmem] at hm; exact hm⟩
  intro es u began' now' newId' hr hclock
  have hkept := hstart.run hr
  unfold ReceiptServer.reserve
  by_cases hold : min q.request.createdAt now' < now' - retryHorizon
  · left
    rw [if_pos hold]
  · right
    -- a retry inside the horizon comes inside the retention
    have hfind : u.find q = some r := by
      refine hkept.found.resolve_right fun hp => ?_
      have hret : receiptRetention = retryHorizon + days 1 := rfl
      omega
    rw [if_neg hold, if_neg (not_not.2 hkept.member), hfind]
    simp only [hbiz, hhash, hres, and_self, if_true]

omit [DecidableEq ρ] in
theorem ReceiptServer.exists_reserve_new {began now : Int} (newId : Nat)
    (hnow : ¬min q.request.createdAt now < now - retryHorizon) (hm : (q.request.businessId, q.userId) ∈ s.members)
    (hf : s.find q = none) : ∃ t, s.reserve began now newId q = .ok (t, none) := by
  unfold reserve
  rw [if_neg hnow, if_neg (not_not.2 hm), hf]
  exact ⟨_, rfl⟩

/-- A prune that finds all other rows locked. -/
theorem ReceiptServer.mem_prunable_alone {now : Int} (hr : r ∈ s.receipts)
    (hat : r.createdAt < now - receiptRetention) (r' : SyncReceipt η ρ) :
    r' ∈ s.prunable now (fun r' => decide (r' ≠ r)) ↔ r' = r := by
  unfold prunable
  generalize hl : List.insertionSort SyncReceipt.before _ = l
  have hall : ∀ x, x ∈ l ↔ x = r := by
    intro x
    rw [← hl, List.mem_insertionSort, List.mem_filter]
    constructor
    · rintro ⟨-, hx⟩
      rw [Bool.and_eq_true] at hx
      simpa using hx.2
    · rintro rfl
      exact ⟨hr, by simp [hat]⟩
  constructor
  · exact fun h => (hall r').1 (List.mem_of_mem_take h)
  · rintro rfl
    cases l with
    | nil => simpa using hall r'
    | cons x l =>
      rw [(hall x).1 List.mem_cons_self]
      exact List.mem_cons_self

/-- A device whose clock is more than a day ahead: its receipt is pruned before a retry is too old. -/
theorem not_answersRetries_of_lt {began now : Int} {newId : Nat} (h : s.reserve began now newId q = .ok (t, none))
    (hd : began + days 1 < q.request.createdAt) : ¬AnswersRetries { t with clock := now } q := by
  obtain ⟨hnow, hm, hmem, hf, r, hrows, hfor, hat, -, -, -⟩ := ReceiptServer.reserve_new h
  intro hall
  have hret : receiptRetention = retryHorizon + days 1 := rfl
  have hpos : 0 < retryHorizon := by decide
  -- the last moment at which a retry is taken
  obtain ⟨at', hat'⟩ : ∃ n, n = q.request.createdAt + retryHorizon := ⟨_, rfl⟩
  have hprunable : ∀ r', r' ∈ ({ t with clock := now } : ReceiptServer η ρ).prunable at' (fun r' => decide (r' ≠ r)) ↔
      r' = r := ReceiptServer.mem_prunable_alone (by rw [hrows]; exact List.mem_append_right _ List.mem_cons_self)
    (by omega)
  obtain ⟨u, hu⟩ : ∃ u, u = ({ ({ t with clock := now } : ReceiptServer η ρ).prune at'
    (fun r' => decide (r' ≠ r)) with clock := at' } : ReceiptServer η ρ) := ⟨_, rfl⟩
  have hrun : Run ReceiptStep { t with clock := now } [.prune] u := by
    rw [hu]
    exact .cons (.prune (show now ≤ at' by omega) _) .nil
  have hnone : u.find q = none := by
    rw [hu]
    refine List.find?_eq_none.2 fun r' hr' => ?_
    obtain ⟨hr', hne⟩ := List.mem_filter.1 hr'
    obtain hr' | hr' := List.mem_append.1 (show r' ∈ s.receipts ++ [r] from hrows ▸ hr')
    · exact List.find?_eq_none.1 hf r' hr'
    · exact absurd ((hprunable r').2 (List.mem_singleton.1 hr')) (of_decide_eq_true hne)
  have hmu : (q.request.businessId, q.userId) ∈ u.members := by
    rw [hu]
    exact hmem ▸ hm
  obtain ⟨v, hv⟩ : ∃ v, u.reserve 0 at' 0 q = .ok (v, none) :=
    ReceiptServer.exists_reserve_new 0 (by omega) hmu hnone
  obtain h' | h' := hall _ u 0 at' 0 hrun (by rw [hu])
  · rw [hv] at h'
    cases h'
  · rw [hv] at h'
    cases h'

/-- A receipt outlives its retries if the device's clock is at most a day ahead of the server. -/
theorem receipt_outlives_retries_iff {began now : Int} {newId : Nat}
    (h : s.reserve began now newId q = .ok (t, none)) :
    AnswersRetries { t with clock := now } q ↔ q.request.createdAt ≤ began + days 1 := by
  constructor
  · intro hall
    by_contra hd
    exact not_answersRetries_of_lt h (by omega) hall
  · exact answersRetries_of_le h

end

/-- An upload of a working week, made at a time of the device's clock. -/
def weekUpload (createdAt : Int) : Upload String Int := ⟨⟨2, "phone", "week", "salon", createdAt⟩, "hash", 8, "ann"⟩

def emptyServer : ReceiptServer String Int := ⟨[], [("salon", "ann")], 0⟩

theorem weekUpload_new {createdAt : Int} (h : -retryHorizon ≤ createdAt) :
    ∃ t, emptyServer.reserve 0 0 1 (weekUpload createdAt) = .ok (t, none) := by
  have hpos : 0 < retryHorizon := by decide
  exact ReceiptServer.exists_reserve_new 1 (show ¬min createdAt 0 < 0 - retryHorizon by omega) List.mem_cons_self rfl

theorem weekUpload_answered : ∃ t : ReceiptServer String Int,
    emptyServer.reserve 0 0 1 (weekUpload 0) = .ok (t, none) ∧ AnswersRetries { t with clock := 0 } (weekUpload 0) := by
  obtain ⟨t, h⟩ := weekUpload_new (show -retryHorizon ≤ 0 by decide)
  exact ⟨t, h, (receipt_outlives_retries_iff h).2 (by decide)⟩

/-- A device two days ahead. -/
theorem fast_clock_forgotten : ¬∀ (s t : ReceiptServer String Int) (q : Upload String Int) (began now : Int)
    (newId : Nat), began ≤ now → s.reserve began now newId q = .ok (t, none) →
      AnswersRetries { t with clock := now } q := by
  intro h
  obtain ⟨t, ht⟩ := weekUpload_new (show -retryHorizon ≤ days 2 by decide)
  exact not_answersRetries_of_lt ht (by decide) (h _ _ _ _ _ _ (le_refl _) ht)

end ClientBridge
