import ClientBridge.Reviews.Requests

/-!
# How often a client is asked

No booking is asked for twice (`ReviewStep.kept`).  A command sees every request of the last 30 days; a
pass looks back from its own instant, and misses one made while it waited for the lock.  Requests stay 30
days apart in runs whose passes are in time (`requests_apart`), and a pass that is not breaks them
(`apart_askAll_iff`).
-/

namespace ClientBridge

open Runs ReviewStore

/-! ## What is read -/

section
variable {π : Type} {s : ReviewStore π}

theorem mem_recentlyAsked {now : Int} {client : Id} : client ∈ s.recentlyAsked now ↔
    ∃ r ∈ s.requests, r.clientId = client ∧ now - requestCooldown < r.requestedAt ∧ r.requestedAt ≤ now := by
  simp only [recentlyAsked, List.mem_map, List.mem_filter, Bool.and_eq_true, decide_eq_true_eq]
  constructor
  · rintro ⟨r, ⟨hr, hwindow⟩, hclient⟩
    exact ⟨r, hr, hclient, hwindow⟩
  · rintro ⟨r, hr, hclient, hwindow⟩
    exact ⟨r, ⟨hr, hwindow⟩, hclient⟩

/-- The booking of an accepted command has no request. -/
theorem unasked_of_check {data : ReviewRequestCreate} (h : s.check data = .ok ()) :
    ∀ r ∈ s.requests, r.bookingId = data.bookingId → r.bookingId = none := by
  unfold ReviewStore.check at h
  intro r hr heq
  split at h
  · cases h
  · split at h
    · cases h
    · split at h
      · cases h
      · split at h
        · next hnone => rw [heq, hnone]
        · next id hid =>
          split at h
          · cases h
          · next b hfind =>
            split at h
            · cases h
            · split at h
              · cases h
              · split at h
                · cases h
                · next hany =>
                  have hb := List.find?_some hfind
                  rw [Bool.and_eq_true, decide_eq_true_eq] at hb
                  rw [List.any_eq_true] at hany
                  refine absurd ⟨r, hr, ?_⟩ hany
                  rw [decide_eq_true_eq, heq, hid, hb.1]

theorem mem_dueBookings {now : Int} {skipped : Id → Bool} {b : ReviewBooking} (h : b ∈ s.dueBookings now skipped) :
    b ∈ s.bookings ∧ ∀ r ∈ s.requests, r.bookingId ≠ some b.id := by
  rw [dueBookings, List.mem_insertionSort, List.mem_filter] at h
  obtain ⟨hb, h⟩ := h
  simp only [Bool.and_eq_true, Bool.not_eq_true', List.any_eq_false, decide_eq_true_eq] at h
  exact ⟨hb, h.1.1.2⟩

theorem dueBookings_nodup (hkeys : (s.bookings.map ReviewBooking.id).Nodup) (now : Int) (skipped : Id → Bool) :
    ((s.dueBookings now skipped).map ReviewBooking.id).Nodup := by
  rw [dueBookings, ((List.perm_insertionSort _ _).map ReviewBooking.id).nodup_iff]
  exact hkeys.sublist (List.filter_sublist.map _)

/-- A pass asks for some of its bookings, one for each of their clients who was not asked. -/
theorem askEach_eq (now : Int) (due : List ReviewBooking) (asked : List Id) :
    ∃ chosen : List ReviewBooking, chosen.Sublist due ∧
      askEach now due asked = chosen.map (fun b => ⟨b.clientId, some b.id, now⟩) ∧
      (chosen.map ReviewBooking.clientId).Nodup ∧ (∀ b ∈ chosen, b.clientId ∉ asked) ∧
      ∀ b ∈ due, b.clientId ∉ asked → b.clientId ∈ chosen.map ReviewBooking.clientId := by
  induction due generalizing asked with
  | nil => exact ⟨[], .slnil, rfl, List.nodup_nil, by simp, by simp⟩
  | cons b due ih =>
    rw [askEach]
    split
    · next hin =>
      obtain ⟨chosen, hsub, heq, hnodup, hnew, hall⟩ := ih asked
      refine ⟨chosen, hsub.cons b, heq, hnodup, hnew, fun c hc hout => ?_⟩
      rcases List.mem_cons.1 hc with rfl | hc
      · exact absurd hin hout
      · exact hall c hc hout
    · next hout =>
      obtain ⟨chosen, hsub, heq, hnodup, hnew, hall⟩ := ih (b.clientId :: asked)
      refine ⟨b :: chosen, hsub.cons_cons b, by rw [heq]; rfl, ?_, ?_, ?_⟩
      · rw [List.map_cons, List.nodup_cons]
        refine ⟨fun hmem => ?_, hnodup⟩
        obtain ⟨c, hc, hclient⟩ := List.mem_map.1 hmem
        exact hnew c hc (by rw [hclient]; exact List.mem_cons_self)
      · intro c hc
        rcases List.mem_cons.1 hc with rfl | hc
        · exact hout
        · exact fun hin => hnew c hc (List.mem_cons_of_mem _ hin)
      · intro c hc hcout
        rw [List.map_cons, List.mem_cons]
        by_cases hsame : c.clientId = b.clientId
        · exact .inl hsame
        · rcases List.mem_cons.1 hc with rfl | hc
          · exact .inl rfl
          · exact .inr (hall c hc fun hin => (List.mem_cons.1 hin).elim hsame hcout)

end

/-! ## What every run keeps -/

/-- Requests were made before now, no booking has two, and bookings have their own keys. -/
structure RequestsKept {π : Type} (s : ReviewStore π) : Prop where
  made : ∀ r ∈ s.requests, r.requestedAt ≤ s.clock
  distinct : s.requests.Pairwise ReviewRequest.Distinct
  keys : (s.bookings.map ReviewBooking.id).Nodup

/-- What a command or a pass knows where it is. -/
def ReviewKnows {π : Type} (p : π) (s : ReviewStore π) : ReviewPlace → Prop
  | .idle | .requesting _ => True
  | .holding _ => s.lock = some p
  | .checked data => s.lock = some p ∧ ∀ r ∈ s.requests, r.bookingId = data.bookingId → r.bookingId = none
  | .stamped data now => s.lock = some p ∧ (∀ r ∈ s.requests, r.bookingId = data.bookingId → r.bookingId = none) ∧
      now ≤ s.clock ∧ ∀ r ∈ s.requests, r.requestedAt ≤ now
  | .passing now => now ≤ s.clock
  | .passHolding now => s.lock = some p ∧ now ≤ s.clock
  | .passRead now due => s.lock = some p ∧ now ≤ s.clock ∧ (due.map ReviewBooking.id).Nodup ∧
      ∀ b ∈ due, ∀ r ∈ s.requests, r.bookingId ≠ some b.id

/-- The requests are left to who holds the lock, and time does not go back. -/
structure LeavesReviews {π : Type} (p : π) (s s' : ReviewStore π) : Prop where
  locked : ∀ q, q ≠ p → s.lock = some q → s'.lock = some q ∧ s'.requests = s.requests
  clock : s.clock ≤ s'.clock

section
variable {π : Type} {p q : π} {s s' : ReviewStore π} {x x' : ReviewPlace}

theorem LeavesReviews.knows (h : LeavesReviews p s s') (hne : q ≠ p) {y : ReviewPlace} (hy : ReviewKnows q s y) :
    ReviewKnows q s' y := by
  have hclock := h.clock
  cases y with
  | idle => trivial
  | requesting data => trivial
  | holding data => exact (h.locked q hne hy).1
  | checked data =>
    obtain ⟨hlock, hrequests⟩ := h.locked q hne hy.1
    exact ⟨hlock, hrequests ▸ hy.2⟩
  | stamped data now =>
    obtain ⟨hlock, hrequests⟩ := h.locked q hne hy.1
    exact ⟨hlock, hrequests ▸ hy.2.1, hy.2.2.1.trans hclock, hrequests ▸ hy.2.2.2⟩
  | passing now => exact le_trans hy hclock
  | passHolding now => exact ⟨(h.locked q hne hy.1).1, hy.2.trans hclock⟩
  | passRead now due =>
    obtain ⟨hlock, hrequests⟩ := h.locked q hne hy.1
    exact ⟨hlock, hy.2.1.trans hclock, hy.2.2.1, hrequests ▸ hy.2.2.2⟩

/-- The lock is free, or the step's own. -/
theorem LeavesReviews.of_own (h : s.lock = none ∨ s.lock = some p) (hclock : s.clock ≤ s'.clock) : LeavesReviews p s s' := by
  refine ⟨fun q hne hq => ?_, hclock⟩
  rcases h with h | h
  · rw [h] at hq
    cases hq
  · rw [h] at hq
    exact absurd (Option.some.inj hq).symm hne

variable [DecidableEq π]

theorem ReviewStep.leaves (hs : ReviewStep p s x s' x') (hx : ReviewKnows p s x) : LeavesReviews p s s' := by
  have hsame : LeavesReviews p s s := ⟨fun q _ hq => ⟨hq, rfl⟩, le_refl _⟩
  cases hs with
  | tick h => exact ⟨fun q _ hq => ⟨hq, rfl⟩, h⟩
  | change h => exact ⟨fun q _ hq => ⟨hq, rfl⟩, le_refl _⟩
  | request => exact hsame
  | lock hl => exact .of_own (.inl hl) (le_refl _)
  | refuse h => exact .of_own (.inr hx) (le_refl _)
  | check h => exact hsame
  | stamp => exact hsame
  | recent h => exact .of_own (.inr hx.1) (le_refl _)
  | ask h => exact .of_own (.inr hx.1) (le_refl _)
  | pass => exact hsame
  | skip h => exact hsame
  | passLock h hl => exact .of_own (.inl hl) (le_refl _)
  | unlinked h => exact .of_own (.inr hx.1) (le_refl _)
  | select h => exact hsame
  | askAll => exact .of_own (.inr hx.1) (le_refl _)
  | rollback =>
    refine ⟨fun q hne hq => ⟨?_, rfl⟩, le_refl _⟩
    show (if s.lock = some p then none else s.lock) = some q
    rw [if_neg (by rw [hq]; exact fun h => hne (Option.some.inj h)), hq]

theorem ReviewStep.knows_own (hs : ReviewStep p s x s' x') (h : RequestsKept s) (hx : ReviewKnows p s x) :
    ReviewKnows p s' x' := by
  cases hs with
  | tick hnow =>
    cases x with
    | stamped data now => exact ⟨hx.1, hx.2.1, hx.2.2.1.trans hnow, hx.2.2.2⟩
    | passing now => exact le_trans hx hnow
    | passHolding now => exact ⟨hx.1, hx.2.trans hnow⟩
    | passRead now due => exact ⟨hx.1, hx.2.1.trans hnow, hx.2.2⟩
    | _ => exact hx
  | change hkeys => cases x <;> exact hx
  | lock hl => exact rfl
  | check hok => exact ⟨hx, unasked_of_check hok⟩
  | stamp => exact ⟨hx.1, hx.2, le_refl _, h.made⟩
  | pass => exact le_refl s.clock
  | passLock hen hl => exact ⟨rfl, hx⟩
  | select hlink =>
    exact ⟨hx.1, hx.2, dueBookings_nodup h.keys _ _, fun b hb => (mem_dueBookings hb).2⟩
  | _ => trivial

theorem RequestsKept.ask (h : RequestsKept s) {data : ReviewRequestCreate} {now : Int}
    (hx : ReviewKnows p s (.stamped data now)) : RequestsKept (s.ask p data now) where
  made r hr := by
    rcases List.mem_append.1 hr with hr | hr
    · exact h.made r hr
    · obtain rfl := List.mem_singleton.1 hr
      exact hx.2.2.1
  distinct := by
    refine List.pairwise_append.2 ⟨h.distinct, List.pairwise_singleton _ _, fun a ha b hb hab => ?_⟩
    obtain rfl := List.mem_singleton.1 hb
    exact hx.2.1 a ha hab
  keys := h.keys

theorem RequestsKept.askAll (h : RequestsKept s) {now : Int} {due : List ReviewBooking}
    (hx : ReviewKnows p s (.passRead now due)) : RequestsKept (s.askAll p now due) := by
  obtain ⟨-, hnow, hnodup, hfree⟩ := hx
  obtain ⟨chosen, hsub, heq, -, -, -⟩ := askEach_eq now due (s.recentlyAsked now)
  refine ⟨fun r hr => ?_, ?_, h.keys⟩
  · rcases List.mem_append.1 hr with hr | hr
    · exact h.made r hr
    · rw [heq] at hr
      obtain ⟨b, -, rfl⟩ := List.mem_map.1 hr
      exact hnow
  · show (s.requests ++ askEach now due (s.recentlyAsked now)).Pairwise ReviewRequest.Distinct
    rw [heq]
    refine List.pairwise_append.2 ⟨h.distinct, ?_, fun a ha b hb hab => ?_⟩
    · refine List.pairwise_map.2 ((List.pairwise_map.1 (hnodup.sublist (hsub.map _))).imp fun hne hab => ?_)
      exact absurd (Option.some.inj hab) hne
    · obtain ⟨c, hc, rfl⟩ := List.mem_map.1 hb
      exact absurd hab (hfree c (hsub.subset hc) a ha)

/-- No step asks for a booking twice. -/
theorem ReviewStep.kept (hs : ReviewStep p s x s' x') (h : RequestsKept s) (hx : ReviewKnows p s x) : RequestsKept s' := by
  cases hs with
  | tick hnow => exact ⟨fun r hr => (h.made r hr).trans hnow, h.distinct, h.keys⟩
  | change hkeys => exact ⟨h.made, h.distinct, hkeys⟩
  | ask hnew => exact h.ask hx
  | askAll => exact h.askAll hx
  | _ => exact ⟨h.made, h.distinct, h.keys⟩

theorem reviews_kept : Kept (ReviewStep (π := π)) RequestsKept ReviewKnows where
  store hs h hx := hs.kept h hx
  own hs h hx := hs.knows_own h hx
  others hs hne _ hx hy := (hs.leaves hx).knows hne hy

/-! ## Thirty days apart -/

theorem apart_ask (hspaced : s.requests.Pairwise ReviewRequest.Apart) {data : ReviewRequestCreate} {now : Int}
    (hx : ReviewKnows p s (.stamped data now)) (hnew : data.clientId ∉ s.recentlyAsked now) :
    (s.ask p data now).requests.Pairwise ReviewRequest.Apart := by
  refine List.pairwise_append.2 ⟨hspaced, List.pairwise_singleton _ _, fun a ha b hb hab => .inr ?_⟩
  obtain rfl := List.mem_singleton.1 hb
  have hmade := hx.2.2.2 a ha
  have hold : ¬now - requestCooldown < a.requestedAt := fun hlt => hnew (mem_recentlyAsked.2 ⟨a, ha, hab, hlt, hmade⟩)
  dsimp only
  omega

/-- A pass keeps requests apart exactly when it is in time. -/
theorem apart_askAll_iff (hspaced : s.requests.Pairwise ReviewRequest.Apart) (now : Int) (due : List ReviewBooking) :
    (s.askAll p now due).requests.Pairwise ReviewRequest.Apart ↔ PassInTime s now due := by
  obtain ⟨chosen, hsub, heq, hclients, hnew, hall⟩ := askEach_eq now due (s.recentlyAsked now)
  show (s.requests ++ askEach now due (s.recentlyAsked now)).Pairwise ReviewRequest.Apart ↔ _
  rw [heq, List.pairwise_append]
  have hcooldown : 0 < requestCooldown := by decide
  constructor
  · rintro ⟨-, -, hcross⟩ b hb hout r hr hclient hwindow
    obtain ⟨c, hc, hsame⟩ := List.mem_map.1 (hall b hb hout)
    have := hcross r hr _ (List.mem_map.2 ⟨c, hc, rfl⟩) (hclient.trans hsame.symm)
    dsimp only at this
    omega
  · intro htime
    refine ⟨hspaced, ?_, fun a ha b hb hab => ?_⟩
    · refine List.pairwise_map.2 ((List.pairwise_map.1 hclients).imp fun hne hab => ?_)
      exact absurd hab hne
    · obtain ⟨c, hc, rfl⟩ := List.mem_map.1 hb
      have hafter := htime c (hsub.subset hc) (hnew c hc) a ha hab
      have hbefore : ¬(now - requestCooldown < a.requestedAt ∧ a.requestedAt ≤ now) := fun hwindow =>
        hnew c hc (mem_recentlyAsked.2 ⟨a, ha, hab, hwindow⟩)
      dsimp only
      omega

theorem TimelyReview.apart (hs : TimelyReview p s x s' x') (hspaced : s.requests.Pairwise ReviewRequest.Apart)
    (hx : ReviewKnows p s x) : s'.requests.Pairwise ReviewRequest.Apart := by
  obtain ⟨hs, htimely⟩ := hs
  cases hs with
  | ask hnew => exact apart_ask hspaced hx hnew
  | @askAll now due =>
    by_cases hsame : (s.askAll p now due).requests = s.requests
    · rw [hsame]
      exact hspaced
    · exact (apart_askAll_iff hspaced now due).2 (htimely now due rfl hsame)
  | _ => exact hspaced

theorem timely_kept : Kept (TimelyReview (π := π)) (fun s => RequestsKept s ∧ s.requests.Pairwise ReviewRequest.Apart)
    ReviewKnows where
  store hs h hx := ⟨hs.step.kept h.1 hx, hs.apart h.2 hx⟩
  own hs h hx := hs.step.knows_own h.1 hx
  others hs hne _ hx hy := (hs.step.leaves hx).knows hne hy

end

/-- In every run no booking is asked for twice; and in a run whose passes are all in time no client is asked
twice in 30 days.  A pass breaks that whenever it is not in time. -/
theorem requests_apart {π : Type} [DecidableEq π] {w : World π (ReviewStore π) ReviewPlace} (hw : ReviewsQuiet w) :
    (∀ ps w', Run (Interleaved ReviewStep) w ps w' → w'.store.requests.Pairwise ReviewRequest.Distinct) ∧
      (w.store.requests.Pairwise ReviewRequest.Apart →
        (∀ ps w', Run (Interleaved TimelyReview) w ps w' → w'.store.requests.Pairwise ReviewRequest.Apart) ∧
        ∀ (p : π) (s : ReviewStore π) (now : Int) (due : List ReviewBooking), s.requests.Pairwise ReviewRequest.Apart →
          ((s.askAll p now due).requests.Pairwise ReviewRequest.Apart ↔ PassInTime s now due)) := by
  have hkept : RequestsKept w.store := ⟨hw.made, hw.distinct, hw.keys⟩
  have hknows : ∀ p, ReviewKnows p w.store (w.place p) := by
    intro p
    rw [hw.idle p]
    trivial
  constructor
  · intro ps w' hrun
    exact (reviews_kept.run hrun ⟨hkept, hknows⟩).1.distinct
  · intro hspaced
    exact ⟨fun ps w' hrun => (timely_kept.run hrun ⟨⟨hkept, hspaced⟩, hknows⟩).1.2,
      fun p s now due hs => apart_askAll_iff hs now due⟩

/-! ## A morning -/

def adasVisit : ReviewBooking where
  id := "visit"
  clientId := "ada"
  status := .completed
  completedAt := some 0
  deleted := false

/-- Ada's visit was completed, and nobody has been asked. -/
def morningWorld : World Bool (ReviewStore Bool) ReviewPlace where
  store :=
    { requests := []
      clients := [⟨"ada", true, false⟩]
      bookings := [adasVisit]
      link := some "https://g.page/r/review"
      enabled := true
      lock := none
      clock := 5 }
  place _ := .idle

theorem morning_quiet : ReviewsQuiet morningWorld where
  idle _ := rfl
  unlocked := rfl
  made r hr := by cases hr
  distinct := .nil
  keys := by decide

/-- A manager is about to ask her when the job does; the manager's request then finds that she was. -/
theorem morning_apart : ∃ (w' : World Bool (ReviewStore Bool) ReviewPlace) (ps : List Bool),
    Run (Interleaved TimelyReview) morningWorld ps w' ∧
    w'.store.requests = [⟨"ada", some "visit", 5⟩] ∧ w'.store.requests.Pairwise ReviewRequest.Apart := by
  have quiet : ∀ {p s x s' x'}, @ReviewStep Bool _ p s x s' x' → s'.requests = s.requests → TimelyReview p s x s' x' :=
    fun h he => ⟨h, fun _ _ _ hne => absurd he hne⟩
  have hr : Run (Interleaved TimelyReview) morningWorld
      [true, false, false, false, false, false, true, true, true, true] _ :=
    .cons (.from rfl (quiet (@ReviewStep.request Bool _ true _ ⟨"ada", none⟩) rfl)) <|
    .cons (.from rfl (quiet (@ReviewStep.pass Bool _ false _) rfl)) <|
    .cons (.from rfl (quiet (@ReviewStep.passLock Bool _ false _ 5 rfl rfl) rfl)) <|
    .cons (.from rfl (quiet (@ReviewStep.select Bool _ false _ 5 (fun _ => false) (by decide)) rfl)) <|
    .cons (.from (x := .passRead 5 [adasVisit]) rfl ⟨@ReviewStep.askAll Bool _ false _ 5 [adasVisit],
      fun _ _ _ _ b _ _ r hr => by cases hr⟩) <|
    .cons (.from rfl (quiet (@ReviewStep.tick Bool _ false _ .idle 10 (by show (5 : Int) ≤ 10; decide)) rfl)) <|
    .cons (.from rfl (quiet (@ReviewStep.lock Bool _ true _ ⟨"ada", none⟩ rfl) rfl)) <|
    .cons (.from rfl (quiet (@ReviewStep.check Bool _ true _ ⟨"ada", none⟩ (by rfl)) rfl)) <|
    .cons (.from rfl (quiet (@ReviewStep.stamp Bool _ true _ ⟨"ada", none⟩) rfl)) <|
    .cons (.from rfl (quiet (@ReviewStep.recent Bool _ true _ ⟨"ada", none⟩ 10 (by decide)) rfl)) .nil
  exact ⟨_, _, hr, rfl, ((requests_apart morning_quiet).2 .nil).1 _ _ hr⟩

/-- The job starts at 5; a manager asks her at 10, and then the job gets the lock and asks her too. -/
theorem late_pass_asks_again : ∃ (w' : World Bool (ReviewStore Bool) ReviewPlace) (ps : List Bool),
    ReviewsQuiet morningWorld ∧ Run (Interleaved ReviewStep) morningWorld ps w' ∧
      w'.store.requests = [⟨"ada", none, 10⟩, ⟨"ada", some "visit", 5⟩] ∧
      ¬w'.store.requests.Pairwise ReviewRequest.Apart := by
  have hr : Run (Interleaved ReviewStep) morningWorld
      [false, true, true, true, true, true, true, false, false, false] _ :=
    .cons (.from rfl (@ReviewStep.pass Bool _ false _)) <|
    .cons (.from rfl (@ReviewStep.tick Bool _ true _ .idle 10 (by show (5 : Int) ≤ 10; decide))) <|
    .cons (.from rfl (@ReviewStep.request Bool _ true _ ⟨"ada", none⟩)) <|
    .cons (.from rfl (@ReviewStep.lock Bool _ true _ ⟨"ada", none⟩ rfl)) <|
    .cons (.from rfl (@ReviewStep.check Bool _ true _ ⟨"ada", none⟩ (by rfl))) <|
    .cons (.from rfl (@ReviewStep.stamp Bool _ true _ ⟨"ada", none⟩)) <|
    .cons (.from rfl (@ReviewStep.ask Bool _ true _ ⟨"ada", none⟩ 10 (by decide))) <|
    .cons (.from rfl (@ReviewStep.passLock Bool _ false _ 5 rfl rfl)) <|
    .cons (.from rfl (@ReviewStep.select Bool _ false _ 5 (fun _ => false) (by decide))) <|
    .cons (.from (x := .passRead 5 [adasVisit]) rfl (@ReviewStep.askAll Bool _ false _ 5 [adasVisit])) .nil
  refine ⟨_, _, morning_quiet, hr, rfl, fun h => ?_⟩
  have hapart := (List.pairwise_cons.1 h).1 ⟨"ada", some "visit", 5⟩ List.mem_cons_self rfl
  exact absurd hapart (by decide)

end ClientBridge
