import ClientBridge.Library.ZoneOffsets

/-!
# Offsets that change now and then

The offset of a zone as a function of the instant.  A list of its changes over a span gives the offset
at every instant of the span (`Listed.offsetFrom_eq`).  Where changes are far apart, two lookups over
the span find the first instant that shows a wall-clock time (`twoStep_of_isLeast`), which is also the
one its changes read the time as (`readAs_iff`).
-/

namespace ZoneOffsets

/-- The offset is a new one at `s`. -/
def ChangesAt (offset : Int → Int) (s : Int) : Prop := offset (s - 1) ≠ offset s

/-- More than `d` lies between two changes. -/
def ChangesApart (d : Int) (offset : Int → Int) : Prop :=
  ∀ s s', ChangesAt offset s → ChangesAt offset s' → s < s' → s + d < s'

/-- The changes after `lo` up to `hi` in order, each with the offset it brings. -/
structure Listed (offset : Int → Int) (lo hi : Int) (cs : List Change) : Prop where
  sorted : cs.Pairwise fun a b => a.1 < b.1
  mem_iff : ∀ c, c ∈ cs ↔ (lo < c.1 ∧ c.1 ≤ hi) ∧ ChangesAt offset c.1 ∧ c.2 = offset c.1

/-- The instant a wall-clock time is read as: the changes passed are those whose later wall-clock time
is. -/
def ReadAs (offset : Int → Int) (wall t : Int) : Prop :=
  ∃ x, (∀ s, ChangesAt offset s → (s ≤ x ↔ s + max (offset (s - 1)) (offset s) ≤ wall)) ∧ t = wall - offset x

section
variable {offset : Int → Int} {d a b s t : Int}

/-- Between two instants with different offsets it changes. -/
theorem exists_change (hab : a ≤ b) (hne : offset a ≠ offset b) : ∃ s, (a < s ∧ s ≤ b) ∧ ChangesAt offset s := by
  induction b, hab using Int.leInduction with
  | base => exact absurd rfl hne
  | succ b hab ih =>
    by_cases hb : offset a = offset b
    · refine ⟨b + 1, by omega, ?_⟩
      rw [ChangesAt, add_sub_cancel_right, ← hb]
      exact hne
    · obtain ⟨s, hs, hchange⟩ := ih hb
      exact ⟨s, by omega, hchange⟩

theorem eq_of_steady (hab : a ≤ b) (h : ∀ s, a < s → s ≤ b → ¬ ChangesAt offset s) : offset a = offset b := by
  by_contra hne
  obtain ⟨s, hs, hchange⟩ := exists_change hab hne
  exact h s hs.1 hs.2 hchange

namespace ChangesApart

/-- A change lasts. -/
theorem after (h : ChangesApart d offset) (hs : ChangesAt offset s) (hst : s ≤ t) (htd : t ≤ s + d) :
    offset t = offset s := by
  refine (eq_of_steady hst fun s' hlt hle hchange => ?_).symm
  have := h s s' hs hchange hlt
  omega

theorem before (h : ChangesApart d offset) (hs : ChangesAt offset s) (hts : t < s) (htd : s ≤ t + 1 + d) :
    offset t = offset (s - 1) := by
  refine eq_of_steady (by omega) fun s' hlt hle hchange => ?_
  have := h s' s hchange hs (by omega)
  omega

end ChangesApart

/-! ## Lists of changes -/

section
variable {lo mid hi : Int} {c : Change} {cs : List Change}

theorem Listed.nil (lo : Int) : Listed offset lo lo [] := by
  refine ⟨List.Pairwise.nil, fun c => ⟨fun hc => ?_, fun ⟨hbetween, _⟩ => ?_⟩⟩
  · cases hc
  · omega

/-- A time without changes adds none. -/
theorem Listed.of_steady (hle : lo ≤ mid) (hsteady : ∀ s, lo < s → s ≤ mid → ¬ ChangesAt offset s)
    (h : Listed offset mid hi cs) : Listed offset lo hi cs := by
  refine ⟨h.sorted, fun c => (h.mem_iff c).trans ⟨fun ⟨hbetween, hc⟩ => ⟨by omega, hc⟩, fun ⟨hbetween, hc⟩ => ⟨?_, hc⟩⟩⟩
  have hpast : ¬ c.1 ≤ mid := fun hle => hsteady c.1 hbetween.1 hle hc.1
  omega

/-- The change that ends a time without changes comes first. -/
theorem Listed.cons (hs : lo < s ∧ s ≤ hi) (hchange : ChangesAt offset s)
    (hsteady : ∀ s', lo < s' → s' < s → ¬ ChangesAt offset s') (h : Listed offset s hi cs) :
    Listed offset lo hi ((s, offset s) :: cs) := by
  refine ⟨List.pairwise_cons.2 ⟨fun c hc => ((h.mem_iff c).1 hc).1.1, h.sorted⟩, fun c => ?_⟩
  rw [List.mem_cons]
  constructor
  · rintro (rfl | hc)
    · exact ⟨hs, hchange, rfl⟩
    · obtain ⟨hbetween, hc⟩ := (h.mem_iff c).1 hc
      exact ⟨by omega, hc⟩
  · rintro ⟨hbetween, hc, he⟩
    rcases lt_trichotomy c.1 s with hlt | heq | hgt
    · exact absurd hc (hsteady c.1 hbetween.1 hlt)
    · exact .inl (Prod.ext heq (by rw [he, heq]))
    · exact .inr ((h.mem_iff c).2 ⟨by omega, hc, he⟩)

theorem Listed.tail (h : Listed offset lo hi (c :: cs)) :
    Listed offset c.1 hi cs := by
  obtain ⟨hfirst, hsorted⟩ := List.pairwise_cons.1 h.sorted
  have hlo := ((h.mem_iff c).1 List.mem_cons_self).1.1
  refine ⟨hsorted, fun e => ⟨fun he => ?_, fun ⟨hbetween, hchange⟩ => ?_⟩⟩
  · obtain ⟨hbetween, hchange⟩ := (h.mem_iff e).1 (List.mem_cons_of_mem _ he)
    exact ⟨⟨hfirst e he, hbetween.2⟩, hchange⟩
  · rcases List.mem_cons.1 ((h.mem_iff e).2 ⟨⟨by omega, hbetween.2⟩, hchange⟩) with rfl | he
    · omega
    · exact he

/-- The list gives the offset over its span; before and after, that of the nearer end. -/
theorem Listed.offsetFrom_eq (h : Listed offset lo hi cs) (hle : lo ≤ hi) (t : Int) :
    offsetFrom (offset lo) cs t = offset (max lo (min t hi)) := by
  induction cs generalizing lo with
  | nil =>
    rw [offsetFrom]
    refine eq_of_steady (le_max_left _ _) fun s hlt hs hchange => ?_
    exact List.not_mem_nil ((h.mem_iff (s, offset s)).2 ⟨⟨hlt, by omega⟩, hchange, rfl⟩)
  | cons c cs ih =>
    obtain ⟨hbetween, -, hc⟩ := (h.mem_iff c).1 List.mem_cons_self
    rw [offsetFrom]
    split
    · next hreached =>
      rw [hc, ih h.tail hbetween.2]
      congr 1
      omega
    · next hbefore =>
      -- the first change is still to come
      refine eq_of_steady (le_max_left _ _) fun s hlt hs hchange => ?_
      rcases List.mem_cons.1 ((h.mem_iff (s, offset s)).2 ⟨⟨hlt, by omega⟩, hchange, rfl⟩) with hhead | htail
      · rw [← hhead] at hbefore
        omega
      · have : c.1 < s := (List.pairwise_cons.1 h.sorted).1 _ htail
        omega

end

/-! ## The first instant that shows a time -/

variable {wall : Int} (hbounds : ∀ x, -b ≤ offset x ∧ offset x < 0) (hapart : ChangesApart d offset)
  (hleast : IsLeast {t | t + offset t = wall} t)

include hbounds in
/-- A time that is shown at all has a first instant. -/
theorem exists_isLeast (h : t + offset t = wall) : ∃ t', IsLeast {t | t + offset t = wall} t' := by
  obtain ⟨least, hshown, hmin⟩ := Int.exists_least_of_bdd (P := fun t => t + offset t = wall)
    ⟨wall, fun x hx => by have := hbounds x; omega⟩ ⟨t, h⟩
  exact ⟨least, hshown, fun x hx => hmin x hx⟩

include hbounds hapart hleast

/-- Two lookups in the offsets of a span find the first instant that shows a time, when it is in the
span, or before it with the offset the span starts with. -/
theorem twoStep_of_isLeast (hbd : b ≤ d) {start stop : Int} (hspan : start ≤ stop) (hstop : t < stop)
    (hstart : start ≤ t ∨ offset t = offset start) :
    twoStep (fun x => offset (max start (min x stop))) wall = t := by
  have hshown : t + offset t = wall := hleast.1
  have ht := hbounds t
  rw [twoStep]
  by_cases hbefore : t < start
  · -- both lookups are before the span
    have hsame := hstart.resolve_left (not_le.2 hbefore)
    rw [show max start (min wall stop) = start by omega, ← hsame, show wall - offset t = t by omega,
      show max start (min t stop) = start by omega, ← hsame]
    omega
  · rw [show min wall stop = wall by omega]
    by_cases hsame : offset (max start wall) = offset t
    · rw [hsame, show wall - offset t = t by omega, show max start (min t stop) = t by omega]
      omega
    · obtain ⟨s, hs, hchange⟩ := exists_change (by omega) hsame
      have hafter := hapart.after hchange hs.2 (by omega)
      have hfirst := hapart.before hchange hs.1 (by omega)
      have hold := hbounds (max start wall)
      -- else it shows the time before the change already
      have hpast : s ≤ wall - offset (max start wall) := by
        by_contra hlt
        have hsame := hapart.before hchange (not_le.1 hlt) (by omega)
        have : t ≤ wall - offset (max start wall) := hleast.2 (by
          show wall - offset (max start wall) + offset (wall - offset (max start wall)) = wall
          omega)
        omega
      rw [hapart.after hchange (show s ≤ max start (min (wall - offset (max start wall)) stop) by omega) (by omega), ← hafter]
      omega

/-- Nothing shows the time and a little more before it is first shown. -/
theorem le_of_shown {m x : Int} (hbd : b + m ≤ d) (hx : wall ≤ x + offset x ∧ x + offset x < wall + m) : t ≤ x := by
  have hshown : t + offset t = wall := hleast.1
  have ht := hbounds t
  have hbx := hbounds x
  by_contra hlt
  obtain ⟨s, hs, hchange⟩ := exists_change (show x ≤ t by omega) (show offset x ≠ offset t by omega)
  have hfirst := hapart.before hchange hs.1 (by omega)
  have hround := hapart.before hchange (show wall - offset x < s by omega) (by omega)
  have : t ≤ wall - offset x := hleast.2 (by
    show wall - offset x + offset (wall - offset x) = wall
    omega)
  omega

/-- The changes read a time as the first instant that shows it. -/
theorem readAs_iff (hbd : b ≤ d) (t' : Int) : ReadAs offset wall t' ↔ t' = t := by
  have hshown : t + offset t = wall := hleast.1
  have ht := hbounds t
  have hpassed : ∀ s, ChangesAt offset s → (s ≤ t ↔ s + max (offset (s - 1)) (offset s) ≤ wall) := by
    intro s hchange
    have hold := hbounds (s - 1)
    have hnew := hbounds s
    constructor
    · intro hst
      by_cases hnear : t ≤ s + d
      · have hafter := hapart.after hchange hst hnear
        by_contra hlate
        -- the time was also shown before the change
        have hback := hapart.before hchange (show wall - offset (s - 1) < s by omega) (by omega)
        have : t ≤ wall - offset (s - 1) := hleast.2 (by
          show wall - offset (s - 1) + offset (wall - offset (s - 1)) = wall
          omega)
        omega
      · omega
    · intro hreached
      by_contra hts
      by_cases hnear : s ≤ t + 1 + d
      · have hbefore := hapart.before hchange (not_le.1 hts) hnear
        omega
      · omega
  constructor
  · rintro ⟨x, hx, rfl⟩
    suffices hsame : offset x = offset t by omega
    have hiff : ∀ s, ChangesAt offset s → (s ≤ x ↔ s ≤ t) := fun s hs => (hx s hs).trans (hpassed s hs).symm
    rcases le_total x t with hxt | htx
    · refine eq_of_steady hxt fun s hlt hle hs => ?_
      have := (hiff s hs).2 hle
      omega
    · refine (eq_of_steady htx fun s hlt hle hs => ?_).symm
      have := (hiff s hs).1 hle
      omega
  · rintro rfl
    exact ⟨t', hpassed, by omega⟩

end

end ZoneOffsets
