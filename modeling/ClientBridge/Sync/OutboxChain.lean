import ClientBridge.Sync.Outbox

/-!
# The rows of one member

The rows of one member in the order they were stored: a link leads to the row right before, what
was attempted has only accepted rows before it, and only the last row may be unattempted.  Each
transaction of the device keeps this (`Chain`).
-/

namespace ClientBridge

open Runs

/-- Every link leads to the row right before, `p` being the one before the first. -/
def Linked : Option String → List OutboxRow → Prop
  | _, [] => True
  | p, r :: rs => (r.predecessor = none ∨ r.predecessor = p) ∧ Linked (some r.id) rs

structure Chain (l : List OutboxRow) : Prop where
  linked : Linked none l
  /-- Only the last row may be unattempted. -/
  attempted : l.Pairwise fun a _ => 0 < a.attemptCount
  /-- What is free to go, or went, comes after accepted rows. -/
  settled : l.Pairwise fun a b => b.predecessor = none ∨ 0 < b.attemptCount → a.state = .accepted
  worked : ∀ r ∈ l, r.state ≠ .queued → 0 < r.attemptCount

section
variable {l : List OutboxRow} {p q : Option String} {f : OutboxRow → OutboxRow}

theorem Linked.map (h : Linked p l) (hid : ∀ r ∈ l, (f r).id = r.id)
    (hlink : ∀ r ∈ l, (f r).predecessor = r.predecessor) : Linked p (l.map f) := by
  induction l generalizing p with
  | nil => trivial
  | cons r l ih =>
    rw [List.map_cons]
    refine ⟨hlink r List.mem_cons_self ▸ h.1, ?_⟩
    rw [hid r List.mem_cons_self]
    exact ih h.2 (fun r hr => hid r (List.mem_cons_of_mem _ hr)) fun r hr => hlink r (List.mem_cons_of_mem _ hr)

theorem Linked.append_cons {r : OutboxRow} {post : List OutboxRow} (h : Linked p (l ++ r :: post)) :
    r.predecessor = none ∨ r.predecessor = (l.getLast?.map (·.id)).or p := by
  induction l generalizing p with
  | nil => exact h.1
  | cons x l ih =>
    have h := ih h.2
    cases l with
    | nil => exact h
    | cons y l => rwa [List.getLast?_cons_cons]

theorem Linked.snoc {r : OutboxRow} (h : Linked p l) (hr : r.predecessor = (l.getLast?.map (·.id)).or p) :
    Linked p (l ++ [r]) := by
  induction l generalizing p with
  | nil => exact ⟨.inr hr, trivial⟩
  | cons x l ih =>
    refine ⟨h.1, ih h.2 ?_⟩
    cases l with
    | nil => exact hr
    | cons y l => rwa [List.getLast?_cons_cons] at hr

/-- A row goes whose successors were unlinked. -/
theorem Linked.drop {u : String} (h : Linked p l) (hid : ∀ r ∈ l, (f r).id = r.id)
    (hlink : ∀ r ∈ l, (f r).predecessor = if r.predecessor = some u then none else r.predecessor)
    (hq : q = p ∨ p = some u) : Linked q ((l.map f).filter fun r => decide (r.id ≠ u)) := by
  induction l generalizing p q with
  | nil => trivial
  | cons r l ih =>
    have hrid := hid r List.mem_cons_self
    have hrlink := hlink r List.mem_cons_self
    have hrest : ∀ {q}, q = some r.id ∨ some r.id = some u →
        Linked q ((l.map f).filter fun r => decide (r.id ≠ u)) := fun hq =>
      ih h.2 (fun r hr => hid r (List.mem_cons_of_mem _ hr)) (fun r hr => hlink r (List.mem_cons_of_mem _ hr)) hq
    rw [List.map_cons, List.filter_cons]
    by_cases hu : r.id = u
    · rw [if_neg (by simp [hrid, hu])]
      exact hrest (.inr (by rw [hu]))
    · rw [if_pos (by simp [hrid, hu])]
      refine ⟨?_, hrest (.inl (by rw [hrid]))⟩
      rw [hrlink]
      by_cases hru : r.predecessor = some u
      · exact .inl (if_pos hru)
      · rw [if_neg hru]
        obtain hnone | hp := h.1
        · exact .inl hnone
        · obtain rfl | hpu := hq
          · exact .inr hp
          · exact absurd (hp.trans hpu) hru

/-- The accepted rows come first. -/
theorem Linked.accepted (h : Linked p l) (hfirst : l.Pairwise fun a b => b.state = .accepted → a.state = .accepted) :
    Linked p (l.filter fun r => decide (r.state = .accepted)) := by
  induction l generalizing p with
  | nil => trivial
  | cons r l ih =>
    obtain ⟨hr, hfirst⟩ := List.pairwise_cons.1 hfirst
    by_cases hstate : r.state = .accepted
    · rw [List.filter_cons, if_pos (by simp [hstate])]
      exact ⟨h.1, ih h.2 hfirst⟩
    · have hnone : (r :: l).filter (fun r => decide (r.state = .accepted)) = [] := by
        refine List.filter_eq_nil_iff.2 fun x hx => ?_
        rw [decide_eq_true_iff]
        obtain rfl | hx := List.mem_cons.1 hx
        · exact hstate
        · exact fun hxs => hstate (hr x hx hxs)
      rw [hnone]
      trivial

/-- Only accepted rows come before a row whose link leads to an accepted one. -/
theorem Chain.before (h : Chain l) {pre post : List OutboxRow} {b : OutboxRow} (hl : l = pre ++ b :: post) {u : String}
    (hb : b.predecessor = some u) (hu : ∀ r ∈ l, r.id = u → r.state = .accepted) : ∀ a ∈ pre, a.state = .accepted := by
  subst hl
  have hlink := h.linked.append_cons
  rw [hb, Option.or_none] at hlink
  obtain hlink | hlink := hlink
  · cases hlink
  obtain ⟨x, hlast, hx⟩ := Option.map_eq_some_iff.1 hlink.symm
  obtain ⟨pre, rfl⟩ := List.getLast?_eq_some_iff.1 hlast
  have haccepted : x.state = .accepted := hu x (by simp) hx
  have hworked : 0 < x.attemptCount := h.worked x (by simp) (by simp [haccepted])
  intro a ha
  obtain ha | ha := List.mem_append.1 ha
  · have hsettled := pairwise_iff_split.1 h.settled pre x (b :: post) (by simp)
    exact hsettled a ha (.inr hworked)
  · rwa [List.mem_singleton.1 ha]

theorem Chain.nil : Chain [] := ⟨trivial, .nil, .nil, by simp⟩

/-- Rows change, their ids and links do not; a first attempt comes after accepted rows. -/
theorem Chain.map (h : Chain l) (hid : ∀ r ∈ l, (f r).id = r.id) (hlink : ∀ r ∈ l, (f r).predecessor = r.predecessor)
    (hcount : ∀ r ∈ l, r.attemptCount ≤ (f r).attemptCount)
    (haccepted : ∀ r ∈ l, r.state = .accepted → (f r).state = .accepted)
    (hworked : ∀ r ∈ l, (f r).state ≠ .queued → 0 < (f r).attemptCount)
    (hfirst : ∀ pre r post, l = pre ++ r :: post → r.attemptCount = 0 → 0 < (f r).attemptCount →
      ∀ a ∈ pre, a.state = .accepted) : Chain (l.map f) where
  linked := h.linked.map hid hlink
  attempted := by
    rw [List.pairwise_map, pairwise_iff_split]
    rintro pre b post rfl a ha
    have hold := pairwise_iff_split.1 h.attempted pre b post rfl a ha
    have hle := hcount a (List.mem_append_left _ ha)
    omega
  settled := by
    rw [List.pairwise_map, pairwise_iff_split]
    rintro pre b post rfl a ha hb
    have hmem : b ∈ pre ++ b :: post := by simp
    refine haccepted a (List.mem_append_left _ ha) ?_
    have hsettled := pairwise_iff_split.1 h.settled pre b post rfl a ha
    rw [hlink b hmem] at hb
    obtain hb | hb := hb
    · exact hsettled (.inl hb)
    · by_cases hcount : b.attemptCount = 0
      · exact hfirst pre b post rfl hcount hb a ha
      · exact hsettled (.inr (by omega))
  worked r' hr' hstate := by
    obtain ⟨r, hr, rfl⟩ := List.mem_map.1 hr'
    exact hworked r hr hstate

/-- An accepted row goes, and its successors need not wait for it. -/
theorem Chain.drop (h : Chain l) {u : String} (hu : ∀ r ∈ l, r.id = u → r.state = .accepted)
    (hid : ∀ r ∈ l, (f r).id = r.id)
    (hlink : ∀ r ∈ l, (f r).predecessor = if r.predecessor = some u then none else r.predecessor)
    (hcount : ∀ r ∈ l, (f r).attemptCount = r.attemptCount) (hstate : ∀ r ∈ l, (f r).state = r.state) :
    Chain ((l.map f).filter fun r => decide (r.id ≠ u)) where
  linked := h.linked.drop hid hlink (.inl rfl)
  attempted := by
    refine List.Pairwise.filter _ ?_
    rw [List.pairwise_map]
    refine h.attempted.imp_of_mem fun ha _ hcounted => ?_
    rwa [hcount _ ha]
  settled := by
    refine List.Pairwise.filter _ ?_
    rw [List.pairwise_map, pairwise_iff_split]
    rintro pre b post rfl a ha hb
    have hmem : b ∈ pre ++ b :: post := by simp
    rw [hstate a (List.mem_append_left _ ha)]
    have hsettled := pairwise_iff_split.1 h.settled pre b post rfl a ha
    rw [hlink b hmem, hcount b hmem] at hb
    obtain hb | hb := hb
    · by_cases hbu : b.predecessor = some u
      · exact h.before rfl hbu hu a ha
      · rw [if_neg hbu] at hb
        exact hsettled (.inl hb)
    · exact hsettled (.inr hb)
  worked r' hr' hworked := by
    obtain ⟨r, hr, rfl⟩ := List.mem_map.1 (List.mem_filter.1 hr').1
    rw [hcount r hr]
    exact h.worked r hr (by rwa [hstate r hr] at hworked)

/-- The accepted rows are left. -/
theorem Chain.accepted (h : Chain l) : Chain (l.filter fun r => decide (r.state = .accepted)) where
  linked := h.linked.accepted (h.settled.imp_of_mem fun ha hb hsettled hstate => by
    exact hsettled (.inr (h.worked _ hb (by simp [hstate]))))
  attempted := h.attempted.filter _
  settled := h.settled.filter _
  worked r hr := h.worked r (List.mem_filter.1 hr).1

/-- A new row after an attempted one. -/
theorem Chain.snoc (h : Chain l) {r : OutboxRow} (hlink : r.predecessor = l.getLast?.map (·.id)) (hstate : r.state = .queued)
    (hcount : r.attemptCount = 0) (hlast : ∀ x, l.getLast? = some x → 0 < x.attemptCount) : Chain (l ++ [r]) where
  linked := h.linked.snoc (by rw [hlink, Option.or_none])
  attempted := by
    refine List.pairwise_append.2 ⟨h.attempted, List.pairwise_singleton _ _, fun a ha b _ => ?_⟩
    obtain ⟨pre, post, rfl⟩ := List.append_of_mem ha
    rcases post.eq_nil_or_concat with rfl | ⟨post, x, rfl⟩
    · exact hlast a (by simp)
    · exact pairwise_iff_split.1 h.attempted (pre ++ a :: post) x [] (by simp) a (by simp)
  settled := by
    refine List.pairwise_append.2 ⟨h.settled, List.pairwise_singleton _ _, fun a ha b hb hfree => ?_⟩
    obtain rfl := List.mem_singleton.1 hb
    obtain hfree | hfree := hfree
    · rw [hlink, Option.map_eq_none_iff, List.getLast?_eq_none_iff] at hfree
      subst hfree
      cases ha
    · omega
  worked x hx hxs := by
    obtain hx | hx := List.mem_append.1 hx
    · exact h.worked x hx hxs
    · rw [List.mem_singleton.1 hx] at hxs
      exact absurd hstate hxs

end

end ClientBridge
