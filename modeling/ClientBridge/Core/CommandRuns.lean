import ClientBridge.Core.Commands

/-!
# Commands run once per key

Over any interleaving of any calls: what the calls know of the database (`CallKnows`), what it
keeps (`StoreKeeps`), and from both that a key's mutation is committed at most once, that every
call that returns answers with it, and that a failed call leaves nothing (`commands_run_once`).
-/

namespace ClientBridge

open Runs

section
variable {π μ α τ κ η ρ ε : Type} (codec : CommandCodec κ η ρ τ)
  (calls : π → Call κ)

/-! ## The invariants -/

/-- The places where a call with a key holds its lock. -/
def CallPlace.holds : CallPlace μ α τ ε → Bool
  | .locked | .running | .staged _ _ _ | .inserted _ _ _ => true
  | _ => false

/-- What a call answers with: what was committed under its key, for the request it made. -/
structure Answers (p : π) (c : Commit π μ α τ) (result : τ) : Prop where
  key : (calls c.caller).key = (calls p).key
  request : ∀ k, (calls p).key = some k → codec.requestHash (calls c.caller).request =
    codec.requestHash (calls p).request
  result : c.caller = p ∧ result = c.result ∨ codec.validate (codec.dump c.result) = some result

structure StoreKeeps (s : CommandStore π μ α τ η ρ) : Prop where
  unique : (s.rows.map (·.key)).Nodup
  rows : s.rows = s.commits.flatMap fun c => remembered codec (calls c.caller) c.result
  pending : ∀ k q, s.inserting k = some q →
    s.row k = none ∧ s.locks (codec.lockId k) = some q ∧ (calls q).key = some k

structure CallKnows (p : π) (s : CommandStore π μ α τ η ρ) (x : CallPlace μ α τ ε) : Prop where
  lock : x.holds = true → ∀ k, (calls p).key = some k → s.locks (codec.lockId k) = some p
  row : ∀ m a r, x = .inserted m a r → ∀ k, (calls p).key = some k → s.inserting k = some p
  inserted : ∀ k, s.inserting k = some p → ∃ m a r, x = .inserted m a r
  answered : ∀ r, x = .returned r → ∃ c ∈ s.commits, Answers codec calls p c r
  uncommitted : (∀ r, x ≠ .returned r) → ∀ c ∈ s.commits, c.caller ≠ p

variable {codec calls} {s : CommandStore π μ α τ η ρ} {p q : π}

/-! ## Reading -/

theorem mem_rows {k : CommandKey} {r : CommandRow η ρ} (h : s.row k = some r) : r ∈ s.rows ∧ r.key = k :=
  ⟨List.mem_of_find?_eq_some h, by simpa using List.find?_some h⟩

section
variable [DecidableEq η]

/-- A call that reads a stored response reads what one call committed for the same request. -/
theorem StoreKeeps.read (h : StoreKeeps codec calls s) {result : τ}
    (hp : prior (ε := ε) codec s (calls p) = .ok (some result)) : ∃ c ∈ s.commits, Answers codec calls p c result := by
  unfold prior at hp
  cases hk : (calls p).key with
  | none =>
    rw [hk] at hp
    cases hp
  | some key =>
    rw [hk] at hp
    simp only at hp
    unfold replay at hp
    cases hr : s.row key with
    | none =>
      rw [hr] at hp
      cases hp
    | some r =>
      obtain ⟨hmem, hkey⟩ := mem_rows hr
      rw [h.rows, List.mem_flatMap] at hmem
      obtain ⟨c, hc, hrem⟩ := hmem
      unfold remembered at hrem
      cases hck : (calls c.caller).key with
      | none =>
        rw [hck] at hrem
        cases hrem
      | some key' =>
        rw [hck] at hrem
        obtain rfl := List.mem_singleton.1 hrem
        obtain rfl : key' = key := hkey
        rw [hr] at hp
        by_cases hhash : codec.requestHash (calls c.caller).request = codec.requestHash (calls p).request
        · simp only [hhash] at hp
          simp only [ne_eq, reduceCtorEq, not_false_eq_true, not_true_eq_false, and_false, if_false] at hp
          cases hv : codec.validate (codec.dump c.result) with
          | none =>
            rw [hv] at hp
            cases hp
          | some v =>
            rw [hv] at hp
            cases hp
            exact ⟨c, hc, hck.trans hk.symm, fun _ _ => hhash, .inr hv⟩
        · simp [hhash] at hp

end

/-! ## What a step leaves -/

/-- A step that neither inserts nor returns. -/
theorem CallKnows.to {x x' : CallPlace μ α τ ε} (hx : CallKnows codec calls p s x)
    (hlock : x'.holds = true → ∀ k, (calls p).key = some k → s.locks (codec.lockId k) = some p)
    (hins : ∀ m a r, x ≠ .inserted m a r) (hins' : ∀ m a r, x' ≠ .inserted m a r)
    (hret : ∀ r, x ≠ .returned r) (hret' : ∀ r, x' ≠ .returned r) : CallKnows codec calls p s x' := by
  refine ⟨hlock, fun m a r he => absurd he (hins' m a r), fun k hk => ?_, fun r he => absurd he (hret' r),
    fun _ => hx.uncommitted hret⟩
  obtain ⟨m, a, r, he⟩ := hx.inserted k hk
  exact absurd he (hins m a r)

/-- A step that returns what it read. -/
theorem CallKnows.read {x : CallPlace μ α τ ε} (hx : CallKnows codec calls p s x) {result : τ}
    (hins : ∀ m a r, x ≠ .inserted m a r) (h : ∃ c ∈ s.commits, Answers codec calls p c result) :
    CallKnows (ε := ε) codec calls p s (.returned result) := by
  refine ⟨fun hh => (by cases hh), fun m a r he => (by cases he), fun k hk => ?_, fun r he => ?_, fun hne => ?_⟩
  · obtain ⟨m, a, r, he⟩ := hx.inserted k hk
    exact absurd he (hins m a r)
  · cases he
    exact h
  · exact absurd rfl (hne result)

section
variable [DecidableEq π]

theorem release_inserting {k : CommandKey} : (s.release p).inserting k = some q ↔ s.inserting k = some q ∧ q ≠ p := by
  show (if s.inserting k = some p then none else s.inserting k) = some q ↔ _
  split
  · next h =>
    rw [h]
    simp only [reduceCtorEq, Option.some.injEq, false_iff, not_and, not_not]
    exact fun hpq => hpq.symm
  · next h =>
    refine ⟨fun hq => ⟨hq, ?_⟩, fun hq => hq.1⟩
    rintro rfl
    exact h hq

theorem release_locks {n : Nat} (h : s.locks n = some q) (hne : q ≠ p) : (s.release p).locks n = some q := by
  show (if s.locks n = some p then none else s.locks n) = some q
  rw [if_neg, h]
  rw [h]
  simpa using hne

theorem StoreKeeps.release (h : StoreKeeps codec calls s) (p : π) : StoreKeeps codec calls (s.release p) := by
  refine ⟨h.unique, h.rows, fun k q hq => ?_⟩
  obtain ⟨hq, hne⟩ := release_inserting.1 hq
  obtain ⟨hrow, hlock, hkey⟩ := h.pending k q hq
  exact ⟨hrow, release_locks hlock hne, hkey⟩

/-- The row of a committed call is under a key that had none. -/
theorem StoreKeeps.commit (h : StoreKeeps codec calls s) {c : Commit π μ α τ}
    (hrow : ∀ k, (calls c.caller).key = some k → s.inserting k = some c.caller) :
    StoreKeeps codec calls ((s.commit codec (calls c.caller) c).release c.caller) := by
  have hnone : ∀ k, (calls c.caller).key = some k → s.row k = none := fun k hk => (h.pending k _ (hrow k hk)).1
  have hfind : ∀ k, s.row k = none ↔ ∀ r ∈ s.rows, r.key ≠ k := by
    intro k
    unfold CommandStore.row
    rw [List.find?_eq_none]
    simp
  refine ⟨?_, ?_, ?_⟩
  · show ((s.rows ++ remembered codec (calls c.caller) c.result).map (·.key)).Nodup
    unfold remembered
    cases hk : (calls c.caller).key with
    | none =>
      rw [List.append_nil]
      exact h.unique
    | some k =>
      rw [List.map_append, List.nodup_append]
      refine ⟨h.unique, by simp, ?_⟩
      intro a ha b hb heq
      obtain ⟨r, hr, rfl⟩ := List.mem_map.1 ha
      have hb : b = k := by simpa using hb
      exact (hfind k).1 (hnone k hk) r hr (heq.trans hb)
  · show s.rows ++ remembered codec (calls c.caller) c.result = _
    show _ = (s.commits ++ [c]).flatMap _
    rw [List.flatMap_append, ← h.rows, List.flatMap_singleton]
  · intro k q hq
    obtain ⟨hq, hne⟩ := release_inserting.1 hq
    obtain ⟨hold, hlock, hkey⟩ := h.pending k q hq
    refine ⟨?_, release_locks hlock hne, hkey⟩
    rw [hfind] at hold
    show (s.rows ++ remembered codec (calls c.caller) c.result).find? _ = none
    rw [List.find?_eq_none]
    intro r hr
    rcases List.mem_append.1 hr with hr | hr
    · simpa using hold r hr
    · unfold remembered at hr
      cases hk : (calls c.caller).key with
      | none =>
        rw [hk] at hr
        cases hr
      | some k' =>
        rw [hk] at hr
        obtain rfl := List.mem_singleton.1 hr
        have hne' : k' ≠ k := by
          rintro rfl
          have hown := hrow k' hk
          have hq' : s.inserting k' = some q := hq
          rw [hown] at hq'
          exact hne (Option.some.inj hq').symm
        simpa using hne'

/-- A step that ends the transaction without a commit. -/
theorem CallKnows.released {x x' : CallPlace μ α τ ε} (hx : CallKnows codec calls p s x)
    (hholds : x'.holds = false) (hret : ∀ r, x ≠ .returned r) (hret' : ∀ r, x' ≠ .returned r) :
    CallKnows codec calls p (s.release p) x' := by
  refine ⟨fun hh => absurd hh (by simp [hholds]), fun m a r he => ?_, fun k hk => ?_,
    fun r he => absurd he (hret' r), fun _ => hx.uncommitted hret⟩
  · rw [he] at hholds
    cases hholds
  · exact absurd rfl (release_inserting.1 hk).2

/-- The end of another call's transaction is nothing to this one. -/
theorem CallKnows.other_release {x : CallPlace μ α τ ε} (hx : CallKnows codec calls q s x) (hne : q ≠ p) :
    CallKnows codec calls q (s.release p) x := by
  refine ⟨fun hh k hk => release_locks (hx.lock hh k hk) hne, fun m a r he k hk => ?_, fun k hk => ?_,
    hx.answered, hx.uncommitted⟩
  · exact release_inserting.2 ⟨hx.row m a r he k hk, hne⟩
  · exact hx.inserted k (release_inserting.1 hk).1

end

/-! ## What every step keeps -/

section
variable [DecidableEq π] [DecidableEq η]

theorem CommandStep.storeKeeps {x x' : CallPlace μ α τ ε} {s' : CommandStore π μ α τ η ρ}
    (hs : CommandStep codec calls p s x s' x') (h : StoreKeeps codec calls s) (hx : CallKnows codec calls p s x) :
    StoreKeeps codec calls s' := by
  cases hs with
  | lock hk hfree =>
    refine ⟨h.unique, h.rows, fun k q hq => ?_⟩
    obtain ⟨hrow, hlock, hkey⟩ := h.pending k q hq
    refine ⟨hrow, ?_, hkey⟩
    show Function.update s.locks _ _ _ = _
    rw [Function.update_of_ne]
    · exact hlock
    · intro heq
      rw [heq, hfree] at hlock
      cases hlock
  | @insert m a r key hk hnew hfree =>
    refine ⟨h.unique, h.rows, fun k q hq => ?_⟩
    replace hq : Function.update s.inserting key (some p) k = some q := hq
    by_cases hkk : k = key
    · subst hkk
      rw [Function.update_self] at hq
      cases hq
      exact ⟨hnew, hx.lock rfl k hk, hk⟩
    · rw [Function.update_of_ne hkk] at hq
      exact h.pending k q hq
  | @commit m a r => exact h.commit (c := ⟨p, m, a, r⟩) fun k hk => hx.row m a r rfl k hk
  | race => exact h.release p
  | fail => exact h.release p
  | failEarly => exact h.release p
  | close => exact h.release p
  | unkeyed => exact h
  | replayed => exact h
  | refused => exact h
  | fresh => exact h
  | ran => exact h
  | insertNothing => exact h
  | racedReplayed => exact h
  | racedRefused => exact h
  | racedLost => exact h

theorem CommandStep.own {x x' : CallPlace μ α τ ε} {s' : CommandStore π μ α τ η ρ}
    (hs : CommandStep codec calls p s x s' x') (h : StoreKeeps codec calls s) (hx : CallKnows codec calls p s x) :
    CallKnows codec calls p s' x' := by
  cases hs with
  | @lock key hk hfree =>
    refine ⟨fun _ k hk' => ?_, fun m a r he => (by cases he), fun k hk' => ?_, fun r he => (by cases he),
      fun _ => hx.uncommitted (by simp)⟩
    · obtain rfl : key = k := Option.some.inj (hk.symm.trans hk')
      exact Function.update_self _ _ _
    · obtain ⟨m, a, r, he⟩ := hx.inserted k hk'
      cases he
  | unkeyed hk =>
    exact hx.to (fun _ k hk' => by rw [hk] at hk'; cases hk') (by simp) (by simp) (by simp) (by simp)
  | replayed hp => exact hx.read (by simp) (h.read hp)
  | refused => exact hx.to (by simp [CallPlace.holds]) (by simp) (by simp) (by simp) (by simp)
  | fresh => exact hx.to (fun _ => hx.lock rfl) (by simp) (by simp) (by simp) (by simp)
  | ran => exact hx.to (fun _ => hx.lock rfl) (by simp) (by simp) (by simp) (by simp)
  | @insert m a r key hk hnew hfree =>
    refine ⟨fun _ => hx.lock rfl, fun m' a' r' _ k hk' => ?_, fun k _ => ⟨m, a, r, rfl⟩,
      fun r he => (by cases he), fun _ => hx.uncommitted (by simp)⟩
    obtain rfl : key = k := Option.some.inj (hk.symm.trans hk')
    exact Function.update_self _ _ _
  | @insertNothing m a r hk =>
    refine ⟨fun _ => hx.lock rfl, fun m' a' r' _ k hk' => ?_, fun k _ => ⟨m, a, r, rfl⟩,
      fun r he => (by cases he), fun _ => hx.uncommitted (by simp)⟩
    rw [hk] at hk'
    cases hk'
  | race => exact hx.released rfl (by simp) (by simp)
  | @commit m a r =>
    refine ⟨fun hh => (by cases hh), fun m' a' r' he => (by cases he), fun k hk => ?_, fun v he => ?_,
      fun hne => absurd rfl (hne r)⟩
    · exact absurd rfl (release_inserting.1 hk).2
    · cases he
      exact ⟨⟨p, m, a, r⟩, List.mem_append_right _ (List.mem_singleton_self _), rfl, fun _ _ => rfl, .inl ⟨rfl, rfl⟩⟩
  | fail hplace =>
    refine hx.released rfl ?_ (by simp)
    rintro r rfl
    simp at hplace
  | failEarly hplace =>
    refine hx.released rfl ?_ (by simp)
    rintro r rfl
    simp at hplace
  | racedReplayed hp => exact hx.read (by simp) (h.read hp)
  | racedRefused => exact hx.to (by simp [CallPlace.holds]) (by simp) (by simp) (by simp) (by simp)
  | racedLost => exact hx.to (by simp [CallPlace.holds]) (by simp) (by simp) (by simp) (by simp)
  | close hplace =>
    refine ⟨fun hh => ?_, fun m a r he => ?_, fun k hk => ?_, hx.answered, hx.uncommitted⟩
    · rcases hplace with ⟨r, rfl⟩ | ⟨e, rfl⟩ <;> cases hh
    · rcases hplace with ⟨r, rfl⟩ | ⟨e, rfl⟩ <;> cases he
    · exact absurd rfl (release_inserting.1 hk).2

theorem CommandStep.others {x x' y : CallPlace μ α τ ε} {s' : CommandStore π μ α τ η ρ}
    (hs : CommandStep codec calls p s x s' x') (hne : q ≠ p) (hy : CallKnows codec calls q s y) :
    CallKnows codec calls q s' y := by
  cases hs with
  | @lock key hk hfree =>
    refine ⟨fun hh k hk' => ?_, hy.row, hy.inserted, hy.answered, hy.uncommitted⟩
    have hlock := hy.lock hh k hk'
    show Function.update s.locks _ _ _ = _
    rw [Function.update_of_ne]
    · exact hlock
    · intro heq
      rw [heq, hfree] at hlock
      cases hlock
  | @insert m a r key hk hnew hfree =>
    refine ⟨hy.lock, fun m' a' r' he k hk' => ?_, fun k hk' => ?_, hy.answered, hy.uncommitted⟩
    · have hrow := hy.row m' a' r' he k hk'
      show Function.update s.inserting _ _ _ = _
      rw [Function.update_of_ne]
      · exact hrow
      · rintro rfl
        rw [hfree] at hrow
        cases hrow
    · refine hy.inserted k ?_
      replace hk' : Function.update s.inserting key (some p) k = some q := hk'
      by_cases hkk : k = key
      · subst hkk
        rw [Function.update_self] at hk'
        exact absurd (Option.some.inj hk').symm hne
      · rwa [Function.update_of_ne hkk] at hk'
  | @commit m a r =>
    have hadd : CallKnows codec calls q (s.commit codec (calls p) ⟨p, m, a, r⟩) y := by
      refine ⟨hy.lock, hy.row, hy.inserted, fun v he => ?_, fun hret c hc => ?_⟩
      · obtain ⟨c, hc, hans⟩ := hy.answered v he
        exact ⟨c, List.mem_append_left _ hc, hans⟩
      · rcases List.mem_append.1 hc with hc | hc
        · exact hy.uncommitted hret c hc
        · rw [List.mem_singleton.1 hc]
          exact hne.symm
    exact hadd.other_release hne
  | race => exact hy.other_release hne
  | fail => exact hy.other_release hne
  | failEarly => exact hy.other_release hne
  | close => exact hy.other_release hne
  | unkeyed => exact hy
  | replayed => exact hy
  | refused => exact hy
  | fresh => exact hy
  | ran => exact hy
  | insertNothing => exact hy
  | racedReplayed => exact hy
  | racedRefused => exact hy
  | racedLost => exact hy

/-- No step breaks what the database keeps or what a call knows of it. -/
theorem commands_kept : Kept (CommandStep (ε := ε) (μ := μ) (α := α) codec calls) (StoreKeeps codec calls)
    (CallKnows codec calls) :=
  ⟨fun hs h hx => hs.storeKeeps h hx, fun hs h hx => hs.own h hx, fun hs hne _ _ hy => hs.others hne hy⟩

end

/-! ## Once per key -/

/-- What was committed under a key. -/
def committedUnder (calls : π → Call κ) (s : CommandStore π μ α τ η ρ) (key : CommandKey) : List (Commit π μ α τ) :=
  s.commits.filter fun c => decide ((calls c.caller).key = some key)

theorem StoreKeeps.count (h : StoreKeeps codec calls s) (key : CommandKey) :
    (committedUnder calls s key).length = (s.rows.map (·.key)).count key := by
  unfold committedUnder
  rw [h.rows]
  induction s.commits with
  | nil => rfl
  | cons c cs ih =>
    rw [List.flatMap_cons, List.map_append, List.count_append, ← ih, List.filter_cons]
    unfold remembered
    cases hk : (calls c.caller).key with
    | none => simp
    | some k =>
      by_cases hkey : k = key
      · simp [hkey]
        omega
      · simp [hkey]

theorem StoreKeeps.once (h : StoreKeeps codec calls s) (key : CommandKey) :
    (committedUnder calls s key).length ≤ 1 := by
  rw [h.count]
  exact List.nodup_iff_count_le_one.1 h.unique key

theorem StoreKeeps.same (h : StoreKeeps codec calls s) {key : CommandKey} {c c' : Commit π μ α τ}
    (hc : c ∈ committedUnder calls s key) (hc' : c' ∈ committedUnder calls s key) : c = c' := by
  have hlen := h.once key
  generalize committedUnder calls s key = cs at hc hc' hlen
  match cs, hlen with
  | [], _ => cases hc
  | [d], _ => rw [List.mem_singleton.1 hc, List.mem_singleton.1 hc']

/-- The row of a key is that of what was committed under it. -/
theorem StoreKeeps.row_eq (h : StoreKeeps codec calls s) {key : CommandKey} {c : Commit π μ α τ}
    (hc : c ∈ committedUnder calls s key) :
    s.row key = some ⟨key, some (codec.requestHash (calls c.caller).request), codec.dump c.result⟩ := by
  obtain ⟨hmem, hkey⟩ := List.mem_filter.1 hc
  have hrow : ⟨key, some (codec.requestHash (calls c.caller).request), codec.dump c.result⟩ ∈ s.rows := by
    rw [h.rows, List.mem_flatMap]
    refine ⟨c, hmem, ?_⟩
    unfold remembered
    rw [of_decide_eq_true hkey]
    exact List.mem_singleton_self _
  cases hr : s.row key with
  | none =>
    have hne := List.find?_eq_none.1 hr _ hrow
    simp at hne
  | some r =>
    obtain ⟨hr', hrk⟩ := mem_rows hr
    rw [List.inj_on_of_nodup_map h.unique hr' hrow hrk]

/-- A key that was committed with another request is refused to whoever reads it. -/
theorem StoreKeeps.prior_reused [DecidableEq η] (h : StoreKeeps codec calls s) {key : CommandKey}
    (hk : (calls p).key = some key) {c : Commit π μ α τ} (hc : c ∈ committedUnder calls s key)
    (hne : codec.requestHash (calls c.caller).request ≠ codec.requestHash (calls p).request) :
    prior (ε := ε) codec s (calls p) = .error .keyReused := by
  have hreplay : replay (ε := ε) codec s key (calls p).request = .error .keyReused := by
    unfold replay
    rw [h.row_eq hc]
    exact if_pos ⟨by simp, fun he => hne (Option.some.inj he)⟩
  unfold prior
  rw [hk]
  simp only [hreplay]

/-- A call that is to read the key and finds it refused is told so, unless it fails before. -/
theorem CommandStep.told [DecidableEq π] [DecidableEq η] {s' : CommandStore π μ α τ η ρ} {x x' : CallPlace μ α τ ε}
    (hs : CommandStep codec calls p s x s' x') (hprior : prior (ε := ε) codec s (calls p) = .error .keyReused)
    (hx : x = .locked ∨ x = .raced) : x' = .raised .keyReused ∨ ∃ e, x' = .raised (.other e) := by
  cases hs with
  | refused h =>
    rw [hprior] at h
    cases h
    exact .inl rfl
  | racedRefused h =>
    rw [hprior] at h
    cases h
    exact .inl rfl
  | replayed h => exact absurd (hprior.symm.trans h) (by simp)
  | fresh h => exact absurd (hprior.symm.trans h) (by simp)
  | racedReplayed h => exact absurd (hprior.symm.trans h) (by simp)
  | racedLost h => exact absurd (hprior.symm.trans h) (by simp)
  | failEarly _ e => exact .inr ⟨e, rfl⟩
  | fail hf => rcases hx with rfl | rfl <;> simp at hf
  | close hf => rcases hx with rfl | rfl <;> simp at hf
  | _ => simp at hx

theorem row_none_of_uncommitted (h : StoreKeeps codec calls s) {key : CommandKey}
    (hnone : committedUnder calls s key = []) : s.row key = none := by
  have hcount := h.count key
  rw [hnone, List.length_nil] at hcount
  cases hr : s.row key with
  | none => rfl
  | some r =>
    obtain ⟨hmem, hkey⟩ := mem_rows hr
    have hin : key ∈ s.rows.map (·.key) := List.mem_map.2 ⟨r, hmem, hkey⟩
    exact absurd hcount.symm (by simpa [List.count_eq_zero] using hin)

section
variable [DecidableEq π] [DecidableEq η]

/-- What any interleaving of calls leaves. -/
structure CommandsOnce (codec : CommandCodec κ η ρ τ) (calls : π → Call κ)
    (w : World π (CommandStore π μ α τ η ρ) (CallPlace μ α τ ε)) : Prop where
  once : ∀ key, (committedUnder calls w.store key).length ≤ 1
  answered : ∀ p key r, (calls p).key = some key → w.place p = .returned r → ∃ c ∈ committedUnder calls w.store key,
    w.store.row key = some ⟨key, some (codec.requestHash (calls p).request), codec.dump c.result⟩ ∧
      (c.caller = p ∧ r = c.result ∨ codec.validate (codec.dump c.result) = some r)
  refused : ∀ p key, (calls p).key = some key → ∀ c ∈ committedUnder calls w.store key,
    codec.requestHash (calls c.caller).request ≠ codec.requestHash (calls p).request →
      (∀ r, w.place p ≠ .returned r) ∧ ∀ c' ∈ w.store.commits, c'.caller ≠ p
  told : ∀ p key, (calls p).key = some key → ∀ c ∈ committedUnder calls w.store key,
    codec.requestHash (calls c.caller).request ≠ codec.requestHash (calls p).request →
      (w.place p = .locked ∨ w.place p = .raced) → ∀ w', Interleaved (CommandStep codec calls) w p w' →
        w'.place p = .raised .keyReused ∨ ∃ e, w'.place p = .raised (.other e)
  failed : ∀ p e, w.place p = .raised e → (∀ c ∈ w.store.commits, c.caller ≠ p) ∧
    ∀ key, w.store.inserting key ≠ some p
  rows : w.store.rows = w.store.commits.flatMap fun c => remembered codec (calls c.caller) c.result
  retry : ∀ p key, (calls p).key = some key → w.place p = .waiting → committedUnder calls w.store key = [] →
    w.store.locks (codec.lockId key) = none → ∀ m a r, ∃ ps w', Run (Interleaved (CommandStep codec calls)) w ps w' ∧
      (∀ q ∈ ps, q = p) ∧ w'.place p = .returned r ∧ w'.store.commits = w.store.commits ++ [⟨p, m, a, r⟩]

/-- A call alone at its key runs to its end. -/
theorem StoreKeeps.retry {w : World π (CommandStore π μ α τ η ρ) (CallPlace μ α τ ε)}
    (h : StoreKeeps codec calls w.store) {key : CommandKey} (hk : (calls p).key = some key)
    (hp : w.place p = .waiting) (hnone : committedUnder calls w.store key = [])
    (hfree : w.store.locks (codec.lockId key) = none) (m : μ) (a : List α) (r : τ) :
    ∃ ps w', Run (Interleaved (CommandStep codec calls)) w ps w' ∧ (∀ q ∈ ps, q = p) ∧
      w'.place p = .returned r ∧ w'.store.commits = w.store.commits ++ [⟨p, m, a, r⟩] := by
  have hrow := row_none_of_uncommitted h hnone
  have hins : w.store.inserting key = none := by
    cases hq : w.store.inserting key with
    | none => rfl
    | some q =>
      have hlock := (h.pending key q hq).2.1
      rw [hfree] at hlock
      cases hlock
  have hprior : ∀ s : CommandStore π μ α τ η ρ, s.row key = none →
      prior (ε := ε) codec s (calls p) = .ok none := by
    intro s hs
    simp [prior, hk, replay, hs]
  have hran : ∀ s : CommandStore π μ α τ η ρ, CommandStep (ε := ε) codec calls p s .running s (.staged m a r) :=
    fun s => .ran
  refine ⟨[p, p, p, p, p], _, .cons (.from hp (.lock hk hfree)) (.cons (.from (Function.update_self _ _ _)
    (.fresh (hprior _ hrow))) (.cons (.from (Function.update_self _ _ _) (hran _))
      (.cons (.from (Function.update_self _ _ _) (.insert hk hrow hins))
        (.cons (.from (Function.update_self _ _ _) .commit) .nil)))), ?_, Function.update_self _ _ _, rfl⟩
  simp

/-- The calls before any of them took a step. -/
def callsStart : World π (CommandStore π μ α τ η ρ) (CallPlace μ α τ ε) :=
  ⟨⟨[], [], fun _ => none, fun _ => none⟩, fun _ => .waiting⟩

/-- **Commands run once per key**, whatever calls interleave and wherever they fail. -/
theorem commands_run_once {ps : List π} {w : World π (CommandStore π μ α τ η ρ) (CallPlace μ α τ ε)}
    (hrun : Run (Interleaved (CommandStep codec calls)) callsStart ps w) : CommandsOnce codec calls w := by
  have hstart : Knows (StoreKeeps codec calls) (CallKnows codec calls)
      (callsStart : World π (CommandStore π μ α τ η ρ) (CallPlace μ α τ ε)) := by
    refine ⟨⟨List.nodup_nil, rfl, fun k q hq => (by cases hq)⟩, fun p => ⟨fun hh => (by cases hh),
      fun m a r he => (by cases he), fun k hk => (by cases hk), fun r he => (by cases he), fun _ c hc => (by cases hc)⟩⟩
  obtain ⟨hstore, hcalls⟩ := commands_kept.run hrun hstart
  have hanswered : ∀ p key r, (calls p).key = some key → w.place p = .returned r →
      ∃ c ∈ committedUnder calls w.store key, Answers codec calls p c r := by
    intro p key r hk hp
    obtain ⟨c, hc, hans⟩ := (hcalls p).answered r hp
    exact ⟨c, List.mem_filter.2 ⟨hc, decide_eq_true (hans.key.trans hk)⟩, hans⟩
  refine ⟨hstore.once, ?_, ?_, ?_, ?_, hstore.rows, fun p key hk hp hnone hfree m a r => hstore.retry hk hp hnone hfree m a r⟩
  · intro p key r hk hp
    obtain ⟨c, hc, hans⟩ := hanswered p key r hk hp
    refine ⟨c, hc, ?_, hans.result⟩
    rw [hstore.row_eq hc, hans.request key hk]
  · intro p key hk c hc hne
    have hnot : ∀ r, w.place p ≠ .returned r := by
      intro r hp
      obtain ⟨c', hc', hans⟩ := hanswered p key r hk hp
      obtain rfl := hstore.same hc hc'
      exact hne (hans.request key hk)
    exact ⟨hnot, (hcalls p).uncommitted hnot⟩
  · intro p key hk c hc hne hp w' hs
    cases hs with
    | step hs =>
      simp only [Function.update_self]
      exact hs.told (hstore.prior_reused hk hc hne) hp
  · intro p e hp
    refine ⟨(hcalls p).uncommitted fun r hr => ?_, fun key hi => ?_⟩
    · rw [hp] at hr
      cases hr
    · obtain ⟨m, a, r, hr⟩ := (hcalls p).inserted key hi
      rw [hp] at hr
      cases hr

end

end

/-- Numbers for requests and responses, stored as they are. -/
def numberCodec : CommandCodec Nat Nat Nat Nat := ⟨id, fun _ => 0, id, some⟩

/-- The same request twice, under one key. -/
def sameCall : Bool → Call Nat := fun _ => ⟨some ⟨"biz_1", "earning.pay", "key_1"⟩, 5⟩

/-- The second call waits for the first and answers with what it stored. -/
theorem second_call_replays : ∃ w : World Bool (CommandStore Bool String String Nat Nat Nat)
    (CallPlace String String Nat Unit), w.place false = .returned 7 ∧ w.store.commits = [⟨true, "paid", ["audit"], 7⟩] ∧
      CommandsOnce numberCodec sameCall w := by
  have hran : ∀ s : CommandStore Bool String String Nat Nat Nat,
      CommandStep (ε := Unit) numberCodec sameCall true s .running s (.staged "paid" ["audit"] 7) := fun s => .ran
  have hrun : ∃ w : World Bool (CommandStore Bool String String Nat Nat Nat) (CallPlace String String Nat Unit),
      Run (Interleaved (CommandStep numberCodec sameCall)) callsStart [true, true, true, true, true, false, false] w ∧
        w.place false = .returned 7 ∧ w.store.commits = [⟨true, "paid", ["audit"], 7⟩] :=
    ⟨_, .cons (.from rfl (.lock rfl rfl)) (.cons (.from rfl (.fresh rfl)) (.cons (.from rfl (hran _))
      (.cons (.from rfl (.insert rfl rfl rfl)) (.cons (.from rfl .commit) (.cons (.from rfl (.lock rfl rfl))
        (.cons (.from rfl (.replayed rfl)) .nil)))))), rfl, rfl⟩
  obtain ⟨w, hrun, hreturned, hcommits⟩ := hrun
  exact ⟨w, hreturned, hcommits, commands_run_once hrun⟩

end ClientBridge
