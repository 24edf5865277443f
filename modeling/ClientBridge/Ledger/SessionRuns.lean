import ClientBridge.Ledger.RefundBounds
import ClientBridge.Ledger.Sessions

/-!
# Package revenue is recognized once

    sessions used  =  consumption journals, each with a reference of its own
    shares         ≥  0, never more than is still deferred
    the last one, or the expiry of those left, leaves nothing deferred   (package_recognized_once)
-/

namespace ClientBridge

open Bookkeeping Runs

/-! ## The journals of a package -/

def deferredKey (packageId : Id) : AccountKey := ⟨.package packageId, .deferred, .plain⟩

def isSessionRef (packageId : Id) : Ref → Bool
  | .consumption id _ => decide (id = packageId)
  | .visitConsumption id _ => decide (id = packageId)
  | _ => false

/-- The references of the package's sessions and of its breakage. -/
def isRecognitionRef (packageId : Id) (r : Ref) : Bool := isSessionRef packageId r || decide (r = .breakage packageId)

/-- The revenue recognized so far. -/
def recognized (L : Ledger) (packageId : Id) : Int :=
  L.sum fun j e => isRecognitionRef packageId j.ref && decide (e.key = deferredKey packageId)

def sessionRefs (L : Ledger) (packageId : Id) : List Ref := (L.map (·.ref)).filter (isSessionRef packageId)

/-! ## Steps -/

inductive SessionAction where
  | consume
  | cover (bookingId : Id)
  | expire
  /-- `taken`: what refunds and lost disputes took back of the deferred revenue. -/
  | elsewhere (taken : Int)

def SessionAction.isSession : SessionAction → Bool
  | .consume => true
  | .cover _ => true
  | _ => false

def SessionAction.taken : SessionAction → Int
  | .elsewhere taken => taken
  | _ => 0

/-- What goes on beside the package's sessions.  A refund or a lost dispute takes back no more than is
held, and only from a package that still has sessions to use. -/
structure BesideSessions (s s' : PackageBooks) (taken : Int) : Prop where
  journals : Extends (fun j => isRecognitionRef s.package.id j.ref = false ∧
    (j.info.event = .consumption → ∀ e ∈ j.legs, e.tag ≠ some (.package s.package.id))) s.ledger s'.ledger
  takes : owned s'.ledger (.package s.package.id) .deferred = owned s.ledger (.package s.package.id) .deferred - taken
  held : 0 ≤ owned s'.ledger (.package s.package.id) .deferred
  paid : paidDeferred s'.ledger s.package.id = paidDeferred s.ledger s.package.id
  closed : s.package.status = .used ∨ s.package.status = .expired → taken = 0
  row : s'.package.id = s.package.id ∧ s'.package.sessionsTotal = s.package.sessionsTotal
  used : s'.package.status = .used ↔ s.package.status = .used
  expired : s'.package.status = .expired ↔ s.package.status = .expired
  /-- A completed visit is never opened again. -/
  completed : ∀ b, (s.visits b).status = .completed → (s'.visits b).status = .completed

inductive SessionStep (s : PackageBooks) : SessionAction → PackageBooks → Prop
  | consume {s'} (h : consumeSession s = .ok s') : SessionStep s .consume s'
  | cover {s'} (bookingId : Id) (covers : Option Id) (now : Int) (canceled : Bool)
      (h : coverVisit s bookingId covers now canceled = .ok s') : SessionStep s (.cover bookingId) s'
  | expire {s'} (now : Int) (h : expirePackage s now = .ok s') : SessionStep s .expire s'
  | elsewhere {s'} (taken : Int) (h : BesideSessions s s' taken) : SessionStep s (.elsewhere taken) s'

/-- A package that was paid for and never used. -/
structure Sold (s : PackageBooks) : Prop where
  refs : ∀ j ∈ s.ledger, isRecognitionRef s.package.id j.ref = false
  unused : sessionsUsed s.ledger s.package.id = 0
  held : 0 ≤ owned s.ledger (.package s.package.id) .deferred
  paid : 0 ≤ paidDeferred s.ledger s.package.id
  status : s.package.status ≠ .used ∧ s.package.status ≠ .expired

/-- What is true after any sessions, expiry and whatever else went on. -/
structure RecognizedOnce (s₀ : PackageBooks) (as : List SessionAction) (s : PackageBooks) : Prop where
  /-- Every session wrote its journal, under a reference no other has. -/
  sessions : sessionsUsed s.ledger s₀.package.id = (as.filter (·.isSession)).length ∧
    (sessionRefs s.ledger s₀.package.id).length = (as.filter (·.isSession)).length
  fresh : (sessionRefs s.ledger s₀.package.id).Nodup
  within : sessionsUsed s.ledger s₀.package.id ≤ s₀.package.sessionsTotal
  shares : ∀ j ∈ s.ledger, isRecognitionRef s₀.package.id j.ref = true →
    ∀ e ∈ j.legs, e.key = deferredKey s₀.package.id → 0 ≤ e.cents
  held : 0 ≤ owned s.ledger (.package s₀.package.id) .deferred
  conserved : recognized s.ledger s₀.package.id + owned s.ledger (.package s₀.package.id) .deferred +
    (as.map (·.taken)).sum = owned s₀.ledger (.package s₀.package.id) .deferred
  whole : sessionsUsed s.ledger s₀.package.id = s₀.package.sessionsTotal ∨ s.package.status = .expired →
    owned s.ledger (.package s₀.package.id) .deferred = 0

/-! ## What a posting adds -/

section
variable {L : Ledger} {packageId : Id}

theorem consumptionOf_eq (L : Ledger) (packageId : Id) : consumptionOf L packageId = fun j =>
    decide (j.info.event = .consumption) && j.legs.any fun e => decide (e.tag = some (.package packageId)) := by
  funext j
  unfold consumptionOf
  by_cases he : j.info.event = .consumption
  · rw [settled_of_ne (L := L) (by rw [he]; decide)]
    simp
  · simp [he]

theorem sessionsUsed_append (L C : Ledger) (packageId : Id) :
    sessionsUsed (L ++ C) packageId = sessionsUsed L packageId + sessionsUsed C packageId := by
  simp only [sessionsUsed, consumptionOf_eq, List.filter_append, List.length_append]

theorem sessionRefs_append (L C : Ledger) (packageId : Id) :
    sessionRefs (L ++ C) packageId = sessionRefs L packageId ++ sessionRefs C packageId := by
  simp only [sessionRefs, List.map_append, List.filter_append]

theorem owned_append (L C : Ledger) (owner : Owner) (category : Category) :
    owned (L ++ C) owner category = owned L owner category - C.sum fun _ e => decide (e.key = ⟨owner, category, .plain⟩) := by
  simp only [owned, balance, Book.sum_append]
  omega

/-- The journal of a session. -/
def sessionJournal (L : Ledger) (packageId : Id) (bookingId : Option Id) (used : Nat) (share : Int) : LedgerJournal :=
  let p := consumptionPosting packageId bookingId used share
  ⟨L.length, p.ref, p.info, p.written⟩

theorem isSessionRef_session (bookingId : Option Id) (used : Nat) (share : Int) :
    isSessionRef packageId (consumptionPosting packageId bookingId used share).ref = true := by
  cases bookingId <;> simp [consumptionPosting, isSessionRef]

theorem post_session {bookingId : Option Id} {used : Nat} {share : Int}
    (hnew : L.has (consumptionPosting packageId bookingId used share).ref = false) :
    post L (consumptionPosting packageId bookingId used share) =
      .ok (L ++ [sessionJournal L packageId bookingId used share]) := by
  have hnet : net (consumptionPosting packageId bookingId used share).legs = 0 := by
    simp [consumptionPosting, net]
  rw [post_eq hnet, Book.write_of_new hnew]
  · rfl
  · simp [consumptionPosting, Posting.written]

/-- What a session adds to every reading of the ledger. -/
theorem readings_session (bookingId : Option Id) (used : Nat) (share : Int) :
    sessionsUsed [sessionJournal L packageId bookingId used share] packageId = 1 ∧
      Book.sum [sessionJournal L packageId bookingId used share] (fun _ e => decide (e.key = deferredKey packageId)) = share ∧
      recognized [sessionJournal L packageId bookingId used share] packageId = share ∧
      paidDeferred [sessionJournal L packageId bookingId used share] packageId = 0 := by
  have href : isSessionRef packageId (consumptionPosting packageId bookingId used share).ref = true :=
    isSessionRef_session bookingId used share
  refine ⟨?_, ?_, ?_, ?_⟩
  · simp [sessionsUsed, consumptionOf_eq, sessionJournal, consumptionPosting, Posting.info, Posting.written, leg]
  · simp [sessionJournal, consumptionPosting, Posting.written, deferredKey, leg, sumOf]
  · simp [recognized, isRecognitionRef, sessionJournal, href]
    simp [consumptionPosting, Posting.written, deferredKey, leg, sumOf]
  · simp [paidDeferred, sessionJournal, consumptionPosting, Posting.info, sumOf_false]

theorem paidDeferred_append (L C : Ledger) (packageId : Id) :
    paidDeferred (L ++ C) packageId = paidDeferred L packageId + paidDeferred C packageId := by
  simp only [paidDeferred, Book.sum_append]
  omega

/-- The leg of a session on the deferred revenue is its share. -/
theorem session_leg {bookingId : Option Id} {used : Nat} {share : Int} {e : Leg}
    (he : e ∈ (sessionJournal L packageId bookingId used share).legs) (hkey : e.key = deferredKey packageId) :
    e.cents = share := by
  simp only [sessionJournal, consumptionPosting, Posting.written, if_true, List.map_cons, List.map_nil, List.mem_cons,
    List.not_mem_nil, or_false] at he
  rcases he with rfl | rfl
  · rfl
  · cases hkey

/-- Journals that are none of the package's sessions. -/
theorem sessions_of_extends {L' : Ledger} (h : Extends (fun j : LedgerJournal => isSessionRef packageId j.ref = false ∧
    (j.info.event = .consumption → ∀ e ∈ j.legs, e.tag ≠ some (.package packageId))) L L') :
    sessionsUsed L' packageId = sessionsUsed L packageId ∧ sessionRefs L' packageId = sessionRefs L packageId := by
  obtain ⟨C, rfl, hC⟩ := h
  have hused : C.filter (consumptionOf C packageId) = [] := by
    rw [List.filter_eq_nil_iff]
    intro j hj hcon
    rw [consumptionOf_eq, Bool.and_eq_true, List.any_eq_true] at hcon
    obtain ⟨hevent, e, he, htag⟩ := hcon
    exact (hC j hj).2 (of_decide_eq_true hevent) e he (of_decide_eq_true htag)
  have hrefs : sessionRefs C packageId = [] := by
    rw [sessionRefs, List.filter_eq_nil_iff]
    intro r hr hsession
    obtain ⟨j, hj, rfl⟩ := List.mem_map.1 hr
    rw [(hC j hj).1] at hsession
    cases hsession
  constructor
  · rw [sessionsUsed_append, sessionsUsed, sessionsUsed, hused]
    rfl
  · rw [sessionRefs_append, hrefs, List.append_nil]

/-- A share takes no less than nothing and no more than what is held, and the last takes it all. -/
theorem sessionShare_bounds {package : PackageRow} (hheld : 0 ≤ owned L (.package package.id) .deferred)
    (hpaid : 0 ≤ paidDeferred L package.id) :
    0 ≤ sessionShare L package ∧ sessionShare L package ≤ owned L (.package package.id) .deferred ∧
      (package.sessionsTotal ≤ sessionsUsed L package.id + 1 →
        sessionShare L package = owned L (.package package.id) .deferred) := by
  have hfloor : 0 ≤ paidDeferred L package.id / package.sessionsTotal := Int.ediv_nonneg hpaid (Int.natCast_nonneg _)
  unfold sessionShare
  dsimp only
  split
  · next hlast => exact ⟨hheld, le_refl _, fun _ => rfl⟩
  · next hlast =>
    refine ⟨le_min hheld hfloor, min_le_left _ _, fun h => absurd h hlast⟩

theorem mem_sessionRefs {r : Ref} : r ∈ sessionRefs L packageId ↔ (∃ j ∈ L, j.ref = r) ∧ isSessionRef packageId r = true := by
  simp [sessionRefs]

end

/-! ## What the commands do -/

section
variable {s s' : PackageBooks}

theorem postConsumption_ok {L L' : Ledger} {package : PackageRow} {booking : Option (Id × CoveredVisit)} {share : Int}
    (h : postConsumption L package booking = .ok (L', share)) :
    post L (consumptionPosting package.id (booking.map (·.1)) (sessionsUsed L package.id + 1) (sessionShare L package)) =
      .ok L' := by
  unfold postConsumption at h
  split at h
  · cases h
  · obtain ⟨L₁, h₁, h⟩ := bind_ok h
    cases h
    exact h₁

theorem consumeSession_ok (h : consumeSession s = .ok s') : s.package.status = .active ∧
    sessionsUsed s.ledger s.package.id < s.package.sessionsTotal ∧
    ∃ L share, postConsumption s.ledger s.package none = .ok (L, share) ∧ s' = s.afterSession L := by
  unfold consumeSession at h
  split at h
  · cases h
  · next hactive =>
    split at h
    · cases h
    · next hleft =>
      obtain ⟨⟨L, share⟩, hpost, h⟩ := bind_ok h
      cases h
      exact ⟨not_not.1 hactive, not_le.1 hleft, L, share, hpost, rfl⟩

theorem coverVisit_ok {bookingId : Id} {covers : Option Id} {now : Int} {canceled : Bool}
    (h : coverVisit s bookingId covers now canceled = .ok s') : s.package.status = .active ∧
    sessionsUsed s.ledger s.package.id < s.package.sessionsTotal ∧ (s.visits bookingId).status = .confirmed ∧
    ∃ v L share, v.status = .completed ∧ postConsumption s.ledger s.package (some (bookingId, v)) = .ok (L, share) ∧
      s' = (s.withVisit bookingId v).afterSession L := by
  unfold coverVisit at h
  obtain ⟨⟨⟩, hopen, h⟩ := bind_ok h
  obtain ⟨⟨⟩, hcovers, h⟩ := bind_ok h
  obtain ⟨v, -, h⟩ := bind_ok h
  obtain ⟨⟨L, share⟩, hpost, h⟩ := bind_ok h
  cases h
  have hconfirmed : (s.visits bookingId).status = .confirmed := by
    unfold assertVisitCoverable at hopen
    split at hopen
    · cases hopen
    · next hc => exact not_not.1 fun hne => hc (.inl hne)
  have hleft : s.package.status = .active ∧ sessionsUsed s.ledger s.package.id < s.package.sessionsTotal := by
    unfold assertCovers at hcovers
    split_ifs at hcovers with _ _ hactive hnone
    exact ⟨not_not.1 fun hne => hactive (.inl hne), not_le.1 hnone⟩
  exact ⟨hleft.1, hleft.2, hconfirmed, _, L, share, rfl, hpost, rfl⟩

theorem expirePackage_ok {now : Int} (h : expirePackage s now = .ok s') : s' = s ∨ s.package.status = .active ∧
    ∃ L, postBreakage s.ledger (.package s.package.id) (.package s.package.id) s.package.id .deferred = .ok L ∧
      s' = { s.withStatus .expired with ledger := L } := by
  unfold expirePackage at h
  split at h
  · next hdue =>
    obtain ⟨L, hpost, h⟩ := bind_ok h
    cases h
    exact .inr ⟨hdue.1, L, hpost, rfl⟩
  · cases h
    exact .inl rfl

end

/-! ## What every step keeps -/

/-- What holds after some sessions. -/
structure SessionInv (s₀ : PackageBooks) (as : List SessionAction) (s : PackageBooks) : Prop extends
    RecognizedOnce s₀ as s where
  id_eq : s.package.id = s₀.package.id
  total_eq : s.package.sessionsTotal = s₀.package.sessionsTotal
  paid : 0 ≤ paidDeferred s.ledger s₀.package.id
  /-- Sessions are numbered by how many there were, so the next number is free. -/
  numbered : ∀ n, Ref.consumption s₀.package.id n ∈ sessionRefs s.ledger s₀.package.id →
    n ≤ sessionsUsed s.ledger s₀.package.id
  covered : ∀ b, Ref.visitConsumption s₀.package.id b ∈ sessionRefs s.ledger s₀.package.id →
    (s.visits b).status = .completed
  used : s.package.status = .used ↔ sessionsUsed s.ledger s₀.package.id = s₀.package.sessionsTotal
  broken : s.ledger.has (.breakage s₀.package.id) = true → s.package.status = .expired

section
variable {s₀ s s' : PackageBooks} {as : List SessionAction}

theorem Sold.inv (h : Sold s₀) : SessionInv s₀ [] s₀ := by
  have hrefs : sessionRefs s₀.ledger s₀.package.id = [] := by
    rw [List.eq_nil_iff_forall_not_mem]
    intro r hr
    obtain ⟨⟨j, hj, rfl⟩, hsession⟩ := mem_sessionRefs.1 hr
    have := h.refs j hj
    rw [isRecognitionRef, hsession] at this
    cases this
  have hnone : recognized s₀.ledger s₀.package.id = 0 :=
    Book.sum_eq_zero_of_no_journal fun j hj e => by simp [h.refs j hj]
  have hpos := s₀.package.sessions_pos
  refine ⟨⟨⟨h.unused, by rw [hrefs]; rfl⟩, by simp [hrefs], by rw [h.unused]; omega, fun j hj href => ?_, h.held, ?_,
    fun hor => ?_⟩, rfl, rfl, h.paid, by simp [hrefs], by simp [hrefs], ?_, fun hbroken => ?_⟩
  · rw [h.refs j hj] at href
    cases href
  · simp [hnone]
  · rcases hor with hfull | hexp
    · rw [h.unused] at hfull
      omega
    · exact absurd hexp h.status.2
  · rw [h.unused]
    exact ⟨fun hused => absurd hused h.status.1, fun hfull => by omega⟩
  · obtain ⟨j, hj, href⟩ := (Book.has_iff _ _).1 hbroken
    have := h.refs j hj
    rw [href] at this
    simp [isRecognitionRef] at this

/-- The reference of the next session is free. -/
theorem SessionInv.next_free (h : SessionInv s₀ as s) (bookingId : Option Id)
    (hopen : ∀ b, bookingId = some b → (s.visits b).status ≠ .completed) (share : Int) :
    s.ledger.has (consumptionPosting s₀.package.id bookingId (sessionsUsed s.ledger s₀.package.id + 1) share).ref = false := by
  rw [Bool.eq_false_iff]
  intro hhas
  obtain ⟨j, hj, href⟩ := (Book.has_iff _ _).1 hhas
  have hmem : (consumptionPosting s₀.package.id bookingId (sessionsUsed s.ledger s₀.package.id + 1) share).ref ∈
      sessionRefs s.ledger s₀.package.id := mem_sessionRefs.2 ⟨⟨j, hj, href⟩, isSessionRef_session _ _ _⟩
  cases bookingId with
  | none =>
    have hle := h.numbered _ hmem
    omega
  | some b => exact hopen b rfl (h.covered b hmem)

/-- A session writes its journal with a share of what is held, and closes the package if it was the
last. -/
theorem SessionInv.session (h : SessionInv s₀ as s) {a : SessionAction} (ha : a.isSession = true) (htaken : a.taken = 0)
    {bookingId : Option Id} (hopen : ∀ b, bookingId = some b → (s.visits b).status ≠ .completed)
    (hactive : s.package.status = .active)
    (hleft : sessionsUsed s.ledger s.package.id < s.package.sessionsTotal) {L : Ledger}
    (hpost : post s.ledger (consumptionPosting s.package.id bookingId (sessionsUsed s.ledger s.package.id + 1)
      (sessionShare s.ledger s.package)) = .ok L) {visits : Id → CoveredVisit}
    (hkept : ∀ b, (s.visits b).status = .completed → (visits b).status = .completed)
    (hdone : ∀ b, bookingId = some b → (visits b).status = .completed) :
    SessionInv s₀ (as ++ [a]) (({ s with visits := visits } : PackageBooks).afterSession L) := by
  have hheld : 0 ≤ owned s.ledger (.package s.package.id) .deferred := by
    rw [h.id_eq]
    exact h.held
  have hpaid : 0 ≤ paidDeferred s.ledger s.package.id := by
    rw [h.id_eq]
    exact h.paid
  obtain ⟨h0, hle, hlast⟩ := sessionShare_bounds hheld hpaid
  set share := sessionShare s.ledger s.package with hshare
  rw [h.id_eq] at hleft hpost hle hlast
  rw [h.total_eq] at hleft hlast
  have hfree := h.next_free bookingId hopen share
  rw [post_session hfree] at hpost
  cases hpost
  obtain ⟨hr1, hr2, hr3, hr4⟩ := @readings_session s.ledger s₀.package.id bookingId
    (sessionsUsed s.ledger s₀.package.id + 1) share
  set J := sessionJournal s.ledger s₀.package.id bookingId (sessionsUsed s.ledger s₀.package.id + 1) share with hJ
  have hused : sessionsUsed (s.ledger ++ [J]) s₀.package.id = sessionsUsed s.ledger s₀.package.id + 1 := by
    rw [sessionsUsed_append, hr1]
  have howned : owned (s.ledger ++ [J]) (.package s₀.package.id) .deferred =
      owned s.ledger (.package s₀.package.id) .deferred - share := by
    rw [owned_append]
    exact congrArg _ hr2
  have hrec : recognized (s.ledger ++ [J]) s₀.package.id = recognized s.ledger s₀.package.id + share := by
    rw [← hr3]
    exact Book.sum_append _ _ _
  have hrefs : sessionRefs (s.ledger ++ [J]) s₀.package.id = sessionRefs s.ledger s₀.package.id ++ [J.ref] := by
    rw [sessionRefs_append]
    simp [sessionRefs, hJ, sessionJournal, isSessionRef_session]
  have hcount : ((as ++ [a]).filter (·.isSession)).length = (as.filter (·.isSession)).length + 1 := by
    simp [List.filter_append, ha]
  have hwithin := h.within
  have hcons := h.conserved
  have hledger : (({ s with visits := visits } : PackageBooks).afterSession (s.ledger ++ [J])).ledger = s.ledger ++ [J] :=
    PackageBooks.afterSession_ledger _ _
  have hvisits : (({ s with visits := visits } : PackageBooks).afterSession (s.ledger ++ [J])).visits = visits :=
    PackageBooks.afterSession_visits _ _
  have hid : (({ s with visits := visits } : PackageBooks).afterSession (s.ledger ++ [J])).package.id = s.package.id :=
    PackageBooks.afterSession_id _ _
  have htotal : (({ s with visits := visits } : PackageBooks).afterSession (s.ledger ++ [J])).package.sessionsTotal =
      s.package.sessionsTotal := PackageBooks.afterSession_sessionsTotal _ _
  have hstatus : (({ s with visits := visits } : PackageBooks).afterSession (s.ledger ++ [J])).package.status =
      if s₀.package.sessionsTotal ≤ sessionsUsed s.ledger s₀.package.id + 1 then .used else s.package.status := by
    rw [← h.id_eq, ← h.total_eq]
    exact PackageBooks.afterSession_status _ _
  set s' := ({ s with visits := visits } : PackageBooks).afterSession (s.ledger ++ [J])
  refine ⟨⟨⟨?_, ?_⟩, ?_, ?_, fun j hj href e he hkey => ?_, ?_, ?_, ?_⟩, ?_, ?_, ?_, fun n hn => ?_, fun b hb => ?_, ?_, ?_⟩
  · rw [hledger, hused, h.sessions.1, hcount]
  · rw [hledger, hrefs, List.length_append, h.sessions.2, hcount]
    rfl
  · rw [hledger, hrefs, List.nodup_append]
    refine ⟨h.fresh, List.nodup_singleton _, fun r hr r' hr' => ?_⟩
    rw [List.mem_singleton.1 hr']
    rintro rfl
    obtain ⟨⟨j, hj, href⟩, -⟩ := mem_sessionRefs.1 hr
    exact (Book.has_false_iff _ _).1 hfree j hj href
  · rw [hledger, hused]
    omega
  · rw [hledger] at hj
    rcases List.mem_append.1 hj with hj | hj
    · exact h.shares j hj href e he hkey
    · rw [List.mem_singleton.1 hj] at he
      exact session_leg he hkey ▸ h0
  · rw [hledger, howned]
    omega
  · rw [hledger, hrec, howned, List.map_append, List.sum_append, List.map_singleton, List.sum_singleton, htaken]
    omega
  · rw [hledger, hused, howned]
    rintro (hfull | hexp)
    · rw [hlast hfull.ge, sub_self]
    · rw [hstatus] at hexp
      split at hexp
      · cases hexp
      · rw [hactive] at hexp
        cases hexp
  · exact hid.trans h.id_eq
  · exact htotal.trans h.total_eq
  · rw [hledger, paidDeferred_append, hr4]
    have := h.paid
    omega
  · rw [hledger, hrefs] at hn
    rw [hledger, hused]
    rcases List.mem_append.1 hn with hn | hn
    · have := h.numbered n hn
      omega
    · cases bookingId with
      | none =>
        obtain ⟨-, rfl⟩ : s₀.package.id = s₀.package.id ∧ n = sessionsUsed s.ledger s₀.package.id + 1 :=
          Ref.consumption.inj (List.mem_singleton.1 hn)
        exact le_refl _
      | some b => cases List.mem_singleton.1 hn
  · rw [hledger, hrefs] at hb
    rw [hvisits]
    rcases List.mem_append.1 hb with hb | hb
    · exact hkept b (h.covered b hb)
    · cases bookingId with
      | none => cases List.mem_singleton.1 hb
      | some b' =>
        obtain ⟨-, rfl⟩ : s₀.package.id = s₀.package.id ∧ b = b' := Ref.visitConsumption.inj (List.mem_singleton.1 hb)
        exact hdone b rfl
  · rw [hledger, hused, hstatus]
    split
    · next hfull => exact ⟨fun _ => by omega, fun _ => rfl⟩
    · next hfull =>
      rw [hactive]
      exact ⟨fun hc => (by cases hc), fun hc => absurd hc.ge hfull⟩
  · intro hbroken
    rw [hledger, Book.has_append] at hbroken
    have hexp : s.package.status = .expired := h.broken (by
      refine (Bool.or_eq_true _ _ ▸ hbroken).resolve_right ?_
      cases bookingId <;> simp [hJ, sessionJournal, consumptionPosting, Book.has])
    rw [hactive] at hexp
    cases hexp

/-- Expiry recognizes what is left. -/
theorem SessionInv.expire (h : SessionInv s₀ as s) (hactive : s.package.status = .active) {L : Ledger}
    (hpost : postBreakage s.ledger (.package s.package.id) (.package s.package.id) s.package.id .deferred = .ok L) :
    SessionInv s₀ as { s.withStatus .expired with ledger := L } := by
  rw [h.id_eq] at hpost
  set unused := owned s.ledger (.package s₀.package.id) .deferred with hunused
  set p := breakagePosting (.package s₀.package.id) (.package s₀.package.id) s₀.package.id .deferred unused with hp
  have hnew : s.ledger.has p.ref = false := by
    rw [Bool.eq_false_iff]
    intro hhas
    have := h.broken hhas
    rw [hactive] at this
    cases this
  have hL : L = s.ledger.write p.ref p.info p.written := (post_ok hpost).1
  have hext : Extends (fun j => j.ref = .breakage s₀.package.id ∧ j.info.event = .breakage ∧
      ∀ e ∈ j.legs, e.key = deferredKey s₀.package.id → e.cents = unused) s.ledger L := by
    rw [hL]
    refine extends_write _ _ _ _ fun _ => ⟨rfl, rfl, fun e he hkey => ?_⟩
    obtain ⟨l, hl, rfl⟩ := mem_written he
    simp only [hp, breakagePosting, List.mem_cons, List.not_mem_nil, or_false] at hl
    rcases hl with rfl | rfl
    · rfl
    · cases hkey
  have hsum : ∀ q, L.sum q = s.ledger.sum q +
      sumOf (fun l => q ⟨s.ledger.length, p.ref, p.info, p.written⟩ { l with tag := l.tag.or p.subject }) p.legs := by
    rw [hL]
    exact sum_posted hnew
  have howned : owned L (.package s₀.package.id) .deferred = 0 := by
    rw [owned, balance, hsum]
    simp [hp, breakagePosting, leg, hunused, owned, balance]
  have hrec : recognized L s₀.package.id = recognized s.ledger s₀.package.id + unused := by
    rw [recognized, hsum]
    simp [hp, breakagePosting, leg, recognized, isRecognitionRef, deferredKey]
  obtain ⟨hused, hrefs⟩ := sessions_of_extends
    (hext.mono fun j hj => ⟨by rw [hj.1]; rfl, fun he => by rw [hj.2.1] at he; cases he⟩)
  have hpaid : paidDeferred L s₀.package.id = paidDeferred s.ledger s₀.package.id :=
    congrArg _ (hext.sum_eq fun j hj e _ => by simp [hj.2.1])
  have hcons := h.conserved
  have hheld := h.held
  refine ⟨⟨⟨?_, ?_⟩, ?_, ?_, fun j hj href e he hkey => ?_, ?_, ?_, fun _ => howned⟩, h.id_eq, h.total_eq, ?_,
    fun n hn => ?_, fun b hb => ?_, ?_, fun _ => rfl⟩
  · rw [hused]
    exact h.sessions.1
  · rw [hrefs]
    exact h.sessions.2
  · rw [hrefs]
    exact h.fresh
  · rw [hused]
    exact h.within
  · rcases hext.mem_or hj with hj | hj
    · exact h.shares j hj href e he hkey
    · exact hj.2.2 e he hkey ▸ h.held
  · exact howned.ge
  · rw [hrec, howned]
    omega
  · rw [hpaid]
    exact h.paid
  · rw [hused]
    exact h.numbered n (hrefs ▸ hn)
  · exact h.covered b (hrefs ▸ hb)
  · rw [hused, ← h.used, hactive]
    exact ⟨fun hc => (by cases hc), fun hc => (by cases hc)⟩

/-- A sweep that finds nothing due counts for nothing. -/
theorem SessionInv.swept (h : SessionInv s₀ as s) : SessionInv s₀ (as ++ [.expire]) s := by
  have hcount : (as ++ [SessionAction.expire]).filter (·.isSession) = as.filter (·.isSession) := by
    simp [List.filter_append, SessionAction.isSession]
  have htaken : ((as ++ [SessionAction.expire]).map (·.taken)).sum = (as.map (·.taken)).sum := by
    rw [List.map_append, List.sum_append, List.map_singleton, List.sum_singleton,
      show SessionAction.expire.taken = 0 from rfl, add_zero]
  exact ⟨⟨hcount ▸ h.sessions, h.fresh, h.within, h.shares, h.held, htaken ▸ h.conserved, h.whole⟩, h.id_eq, h.total_eq,
    h.paid, h.numbered, h.covered, h.used, h.broken⟩

theorem SessionInv.elsewhere (h : SessionInv s₀ as s) {taken : Int} (hbeside : BesideSessions s s' taken) :
    SessionInv s₀ (as ++ [.elsewhere taken]) s' := by
  obtain ⟨hj, htakes, hheld, hpaid, hclosed, hrow, hused', hexpired, hcompleted⟩ := hbeside
  rw [h.id_eq] at hj htakes hheld hpaid hrow
  rw [h.total_eq] at hrow
  obtain ⟨hused, hrefs⟩ := sessions_of_extends
    (hj.mono fun j hj => ⟨(Bool.or_eq_false_iff.1 hj.1).1, hj.2⟩)
  have hrec : recognized s'.ledger s₀.package.id = recognized s.ledger s₀.package.id :=
    hj.sum_eq fun j hj e _ => by simp [hj.1]
  have hcons := h.conserved
  refine ⟨⟨⟨?_, ?_⟩, ?_, ?_, fun j hm href e he hkey => ?_, hheld, ?_, fun hor => ?_⟩, hrow.1, hrow.2, ?_,
    fun n hn => ?_, fun b hb => ?_, ?_, fun hbroken => ?_⟩
  · rw [hused, h.sessions.1]
    simp [SessionAction.isSession]
  · rw [hrefs, h.sessions.2]
    simp [SessionAction.isSession]
  · rw [hrefs]
    exact h.fresh
  · rw [hused]
    exact h.within
  · rcases hj.mem_or hm with hm | hm
    · exact h.shares j hm href e he hkey
    · rw [hm.1] at href
      cases href
  · rw [hrec, htakes, List.map_append, List.sum_append, List.map_singleton, List.sum_singleton,
      show (SessionAction.elsewhere taken).taken = taken from rfl]
    omega
  · rw [hused] at hor
    rw [hexpired] at hor
    rw [htakes, h.whole hor, hclosed (hor.imp_left h.used.2)]
    rfl
  · rw [hpaid]
    exact h.paid
  · rw [hused]
    exact h.numbered n (hrefs ▸ hn)
  · exact hcompleted b (h.covered b (hrefs ▸ hb))
  · rw [hused, hused']
    exact h.used
  · obtain ⟨j, hm, href⟩ := (Book.has_iff _ _).1 hbroken
    rcases hj.mem_or hm with hm | hm
    · exact hexpired.2 (h.broken ((Book.has_iff _ _).2 ⟨j, hm, href⟩))
    · rw [href] at hm
      simp [isRecognitionRef] at hm

/-- **Package revenue is recognized once.**  Whatever sessions are consumed by hand or cover visits, in
whatever order, each writes its journal with a share of what is held, the held amount is never
overdrawn, and when the last session is used or the rest expire all of it is recognized. -/
theorem package_recognized_once (h₀ : Sold s₀) (hrun : Run SessionStep s₀ as s) : RecognizedOnce s₀ as s := by
  suffices SessionInv s₀ as s from this.toRecognizedOnce
  induction hrun with
  | nil => exact h₀.inv
  | snoc hrun hstep ih =>
    cases hstep with
    | consume h =>
      obtain ⟨hactive, hleft, L, share, hpost, rfl⟩ := consumeSession_ok h
      exact ih.session rfl rfl (fun b hb => by cases hb) hactive hleft (postConsumption_ok hpost) (fun b hb => hb)
        fun b hb => by cases hb
    | cover bookingId covers now canceled h =>
      obtain ⟨hactive, hleft, hconfirmed, v, L, share, hv, hpost, rfl⟩ := coverVisit_ok h
      refine ih.session rfl rfl  (fun b hb => ?_) hactive hleft (postConsumption_ok hpost)
        (fun b hb => ?_) fun b hb => ?_
      · cases hb
        rw [hconfirmed]
        decide
      · by_cases hbv : b = bookingId
        · rw [hbv, Function.update_self]
          exact hv
        · rw [Function.update_of_ne hbv]
          exact hb
      · cases hb
        rw [Function.update_self]
        exact hv
    | expire now h =>
      obtain rfl | ⟨hactive, L, hpost, rfl⟩ := expirePackage_ok h
      · exact ih.swept
      · exact (ih.expire hactive hpost).swept
    | elsewhere taken h => exact ih.elsewhere h

end

/-! ## Three sessions of 100.00 -/

def massagePackage : PackageRow where
  id := "pkg_1"
  clientId := "cli_1"
  subjectId := none
  sessionsTotal := 3
  status := .active
  expiresAt := some 900
  sessions_pos := by decide

def massageVisit : CoveredVisit where
  clientId := "cli_1"
  subjectId := none
  itemId := "itm_1"
  startsAt := 50
  status := .confirmed
  orderId := none
  charged := false
  billed := false
  deposit := .none
  packageId := none
  completedAt := none

def massageBooks : PackageBooks where
  ledger := [⟨0, .payment "pay_1", ⟨.payment, some (.payment "pay_1"), {}⟩,
    [legOn .business .cash 10500 (.package "pkg_1"), legOn (.package "pkg_1") .deferred (-10000) (.package "pkg_1"),
      ⟨⟨.business, .tax, .tax .GST⟩, -500, some (.package "pkg_1")⟩]⟩]
  package := massagePackage
  visits := fun _ => massageVisit

def massageBooks₁ : PackageBooks := (consumeSession massageBooks).toOption.get (by decide)

def massageBooks₂ : PackageBooks :=
  (coverVisit massageBooks₁ "bkg_1" (some "itm_1") 60 false).toOption.get (by decide)

def massageBooks₃ : PackageBooks := (consumeSession massageBooks₂).toOption.get (by decide)

/-- Shares of 33.33, 33.33 and 33.34, the second for a visit. -/
theorem massages_recognized_once :
    RecognizedOnce massageBooks [.consume, .cover "bkg_1", .consume] massageBooks₃ ∧
      massageBooks₃.package.status = .used ∧ recognized massageBooks₂.ledger "pkg_1" = 6666 ∧
      recognized massageBooks₃.ledger "pkg_1" = 10000 := by
  have h₀ : Sold massageBooks := ⟨by decide, by decide, by decide, by decide, by decide⟩
  have h₁ : SessionStep massageBooks .consume massageBooks₁ := .consume (eq_ok_get (by decide))
  have h₂ : SessionStep massageBooks₁ (.cover "bkg_1") massageBooks₂ :=
    .cover "bkg_1" (some "itm_1") 60 false (eq_ok_get (by decide))
  have h₃ : SessionStep massageBooks₂ .consume massageBooks₃ := .consume (eq_ok_get (by decide))
  exact ⟨package_recognized_once h₀ (.cons h₁ (.cons h₂ (.cons h₃ .nil))), by decide, by decide, by decide⟩

/-! ## Refunds leave what is held -/

section
variable {packageId : Id}

theorem keyed_unwound_le (L : Ledger) {d : List (AccountKey × Int)} (hd : (Dict.keys d).Nodup) (parts : List Int) :
    keyed (onKey (deferredKey packageId)) (List.zipWith (fun x cents =>
      (⟨x.1, withinHolding L x.1 cents, none⟩ : Leg)) d parts) ≤ max 0 (owned L (.package packageId) .deferred) := by
  by_cases hkey : ∃ (i : Nat) (x : AccountKey × Int) (cents : Int), d[i]? = some x ∧ parts[i]? = some cents ∧
      x.1 = deferredKey packageId
  · obtain ⟨i, x, cents, hx, hcents, hxkey⟩ := hkey
    rw [← hxkey, keyed_zipWith hd hx hcents fun key cents => withinHolding L key cents, hxkey]
    exact min_le_right _ _
  · refine le_trans (le_of_eq (sumOf_eq_zero fun e he hq => ?_)) (le_max_left _ _)
    obtain ⟨i, x, cents, hx, hcents, rfl⟩ := mem_zipWith he
    exact absurd ⟨i, x, cents, hx, hcents, of_decide_eq_true hq⟩ hkey

/-- A refund's legs are shares of the credits, then legs that touch no deferred revenue. -/
theorem refundLegs_deferred (db : Db) (payment row : Payment) (unapplied : Bool) :
    ∃ (d : List (AccountKey × Int)) (parts : List Int) (rest : List Leg), (Dict.keys d).Nodup ∧
      (∀ e ∈ rest, e.key.category ≠ .deferred) ∧
      refundLegs db payment row.amountCents row.id unapplied =
        List.zipWith (fun x cents => (⟨x.1, withinHolding db.ledger x.1 cents, none⟩ : Leg)) d parts ++ rest := by
  have htips : ∀ tip, ∀ e ∈ tipLegs tip, e.key.category ≠ .deferred := by
    intro tip e he
    unfold tipLegs at he
    split at he
    · cases he
    · rw [List.mem_singleton.1 he]
      exact fun hc => by cases hc
  have hcons : ∀ (l : Leg) tip, l.key.category ≠ .deferred → ∀ e ∈ l :: tipLegs tip, e.key.category ≠ .deferred := by
    intro l tip hl e he
    rcases List.mem_cons.1 he with rfl | he
    · exact hl
    · exact htips tip e he
  simp only [refundLegs]
  split
  · refine ⟨[], [], _, List.nodup_nil, ?_, rfl⟩
    exact hcons _ _ fun hc => by cases hc
  split
  · refine ⟨[], [], _, List.nodup_nil, ?_, rfl⟩
    exact hcons _ _ fun hc => by cases hc
  simp only [unwind]
  split
  · refine ⟨_, _, _, nodup_owed _, ?_, List.append_assoc _ _ _⟩
    exact hcons _ _ fun hc => by cases hc
  · exact ⟨_, _, _, nodup_owed _, htips _, rfl⟩

/-- A refund takes back no more deferred revenue than is held. -/
theorem refund_leaves_held {db db' : Db} {payment row : Payment} {unapplied : Bool} (hid : FreshRefund db row.id)
    (hheld : 0 ≤ owned db.ledger (.package packageId) .deferred)
    (h : postRefund (db.addPayment row) row payment unapplied = .ok db') :
    0 ≤ owned db'.ledger (.package packageId) .deferred := by
  obtain ⟨L', subject, rfl, -, hx⟩ := postRefund_extends h
  set p := refundPosting (db.addPayment row) row payment unapplied with hp
  have hzero : ∀ legs : List Leg, (∀ e ∈ legs, e.key.category ≠ .deferred) →
      keyed (onKey (deferredKey packageId)) legs = 0 := fun legs hlegs => sumOf_eq_zero fun e he hq => by
    have hkey : e.key = deferredKey packageId := of_decide_eq_true hq
    exact absurd (by rw [hkey]; rfl) (hlegs e he)
  have htaken : keyed (onKey (deferredKey packageId)) p.legs ≤ owned db.ledger (.package packageId) .deferred := by
    obtain ⟨d, parts, rest, hd, hrest, hlegs⟩ := refundLegs_deferred (db.addPayment row) payment row unapplied
    have hcash : ∀ e ∈ [leg .business (cashCategory payment) (-row.amountCents)], e.key.category ≠ .deferred := by
      intro e he
      rw [List.mem_singleton.1 he]
      simp only [leg_key]
      unfold cashCategory
      split <;> exact fun hc => by cases hc
    have hsplit : p.legs = [leg .business (cashCategory payment) (-row.amountCents)] ++
        (List.zipWith (fun x cents => (⟨x.1, withinHolding db.ledger x.1 cents, none⟩ : Leg)) d parts ++ rest) :=
      congrArg _ hlegs
    rw [hsplit, keyed_append, keyed_append, hzero _ hcash, hzero rest hrest]
    have := @keyed_unwound_le packageId db.ledger _ hd parts
    omega
  have hbalance : owned L' (.package packageId) .deferred = owned db.ledger (.package packageId) .deferred -
      keyed (onKey (deferredKey packageId)) p.legs := by
    have hnew := hid.refs p.ref (.inl rfl)
    have htip : L'.sum (fun _ e => decide (e.key = deferredKey packageId)) =
        (db.ledger.write p.ref p.info p.written).sum fun _ e => decide (e.key = deferredKey packageId) :=
      hx.sum_eq fun j hj e he => decide_eq_false fun hkey => by
        rcases (hj.2.2 e he).2 with hc | hc <;> rw [hkey] at hc <;> cases hc
    have hsum : balance L' (deferredKey packageId) =
        balance db.ledger (deferredKey packageId) + keyed (onKey (deferredKey packageId)) p.legs :=
      htip.trans (sum_posted hnew _)
    show -balance L' (deferredKey packageId) =
      -balance db.ledger (deferredKey packageId) - keyed (onKey (deferredKey packageId)) p.legs
    omega
  rw [Db.ledger_withLedger, hbalance]
  omega

end

end ClientBridge
