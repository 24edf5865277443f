import Mathlib

/-!
# Intervals side by side

Intervals taken by their starts are put into the first column that is free again (`firstFit`).  No column
holds two that overlap, and as many columns are opened as intervals run at one instant (`Fits`).  `groupsOf`
cuts the list where every interval before has finished, and no later than a floor: a group holds the
intervals that are linked by overlaps, and all those linked to one that starts below the floor
(`mem_group_iff`).
-/

namespace IntervalColumns

variable {ι τ : Type} [LinearOrder τ]

section
variable (start finish : ι → τ)

def Overlap (e f : ι) : Prop := start e < finish f ∧ start f < finish e

def runsAt (t : τ) (e : ι) : Bool := decide (start e ≤ t) && decide (t < finish e)

/-- The columns the intervals are put into, and when each column is free again. -/
def firstFit : List τ → List ι → List Nat × List τ
  | ends, [] => ([], ends)
  | ends, e :: es =>
    match ends.findIdx? fun x => decide (x ≤ start e) with
    | none => (ends.length :: (firstFit (ends ++ [finish e]) es).1, (firstFit (ends ++ [finish e]) es).2)
    | some c => (c :: (firstFit (ends.set c (finish e)) es).1, (firstFit (ends.set c (finish e)) es).2)

/-- The list cut where an interval starts no earlier than the ones before it finish, and than the floor. -/
def groupsOf (floor : τ) : List ι → List ι → τ → List (List ι)
  | [], group, _ => [group]
  | e :: es, group, maxEnd =>
    if group ≠ [] ∧ maxEnd ≤ start e then group :: groupsOf floor es [e] (max floor (finish e))
    else groupsOf floor es (group ++ [e]) (max maxEnd (finish e))

/-- What holds of the columns and of the intervals in them. -/
structure Fits (ends : List τ) (placed : List (ι × Nat)) : Prop where
  bounded : ∀ p ∈ placed, ∃ x, ends[p.2]? = some x ∧ finish p.1 ≤ x
  attained : ∀ c x, ends[c]? = some x → ∃ p ∈ placed, p.2 = c ∧ finish p.1 = x
  apart : placed.Pairwise fun p q => p.2 = q.2 → finish p.1 ≤ start q.1
  peak : ends ≠ [] → ∃ t, ends.length ≤ (placed.filter fun p => runsAt start finish t p.1).length

end

section
variable {start finish : ι → τ} {ends : List τ} {placed : List (ι × Nat)} {e : ι}

theorem runsAt_iff {t : τ} : runsAt start finish t e = true ↔ start e ≤ t ∧ t < finish e := by
  simp [runsAt]

theorem Overlap.symm {f : ι} (h : Overlap start finish e f) : Overlap start finish f e := And.symm h

theorem overlap_of_runsAt {t : τ} {f : ι} (he : runsAt start finish t e = true) (hf : runsAt start finish t f = true) :
    Overlap start finish e f := by
  rw [runsAt_iff] at he hf
  exact ⟨he.1.trans_lt hf.2, hf.1.trans_lt he.2⟩

/-- A column is opened when every other one holds an interval that is running. -/
theorem Fits.opened (h : Fits start finish ends placed) (hlast : ∀ p ∈ placed, start p.1 ≤ start e)
    (he : start e < finish e) (hbusy : ∀ x ∈ ends, start e < x) :
    Fits start finish (ends ++ [finish e]) (placed ++ [(e, ends.length)]) where
  bounded p hp := by
    rcases List.mem_append.1 hp with hp | hp
    · obtain ⟨x, hx, hle⟩ := h.bounded p hp
      exact ⟨x, by rw [List.getElem?_append_left (List.getElem?_eq_some_iff.1 hx).1]; exact hx, hle⟩
    · obtain rfl := List.mem_singleton.1 hp
      exact ⟨finish e, List.getElem?_concat_length, le_refl _⟩
  attained c x hc := by
    rcases lt_or_ge c ends.length with hlt | hge
    · rw [List.getElem?_append_left hlt] at hc
      obtain ⟨p, hp, hcol, hx⟩ := h.attained c x hc
      exact ⟨p, List.mem_append_left _ hp, hcol, hx⟩
    · have hlen := (List.getElem?_eq_some_iff.1 hc).1
      rw [List.length_append, List.length_singleton] at hlen
      obtain rfl : c = ends.length := by omega
      rw [List.getElem?_concat_length] at hc
      exact ⟨(e, ends.length), List.mem_append_right _ List.mem_cons_self, rfl, Option.some.inj hc⟩
  apart := by
    refine List.pairwise_append.2 ⟨h.apart, List.pairwise_singleton _ _, fun p hp q hq hcol => ?_⟩
    obtain rfl := List.mem_singleton.1 hq
    obtain ⟨x, hx, -⟩ := h.bounded p hp
    have hlt := (List.getElem?_eq_some_iff.1 hx).1
    dsimp only at hcol
    omega
  peak _ := by
    refine ⟨start e, ?_⟩
    have hsub : List.range (ends.length + 1) ⊆
        (((placed ++ [(e, ends.length)]).filter fun p => runsAt start finish (start e) p.1).map Prod.snd) := by
      intro c hc
      rcases Nat.lt_succ_iff_lt_or_eq.1 (List.mem_range.1 hc) with hlt | rfl
      · obtain ⟨p, hp, hcol, hx⟩ := h.attained c _ (List.getElem?_eq_getElem hlt)
        refine List.mem_map.2 ⟨p, List.mem_filter.2 ⟨List.mem_append_left _ hp, runsAt_iff.2 ⟨hlast p hp, ?_⟩⟩, hcol⟩
        rw [hx]
        exact hbusy _ (List.getElem_mem hlt)
      · exact List.mem_map.2 ⟨(e, ends.length),
          List.mem_filter.2 ⟨List.mem_append_right _ List.mem_cons_self, runsAt_iff.2 ⟨le_refl _, he⟩⟩, rfl⟩
    have := ((List.nodup_range).subperm hsub).length_le
    rw [List.length_range, List.length_map] at this
    rw [List.length_append, List.length_singleton]
    exact this

/-- A column is used again when what it holds has finished. -/
theorem Fits.reused (h : Fits start finish ends placed) (he : start e < finish e) {c : Nat} {x : τ}
    (hc : ends[c]? = some x) (hfree : x ≤ start e) :
    Fits start finish (ends.set c (finish e)) (placed ++ [(e, c)]) where
  bounded p hp := by
    have hlt := (List.getElem?_eq_some_iff.1 hc).1
    rcases List.mem_append.1 hp with hp | hp
    · obtain ⟨y, hy, hle⟩ := h.bounded p hp
      by_cases hcol : p.2 = c
      · rw [hcol, hc] at hy
        obtain rfl := Option.some.inj hy
        exact ⟨finish e, by rw [hcol]; exact List.getElem?_set_self hlt, (hle.trans hfree).trans he.le⟩
      · exact ⟨y, by rw [List.getElem?_set_ne (Ne.symm hcol)]; exact hy, hle⟩
    · obtain rfl := List.mem_singleton.1 hp
      exact ⟨finish e, List.getElem?_set_self hlt, le_refl _⟩
  attained c' y hc' := by
    by_cases hcol : c' = c
    · subst hcol
      rw [List.getElem?_set_self (List.getElem?_eq_some_iff.1 hc).1] at hc'
      exact ⟨(e, c'), List.mem_append_right _ List.mem_cons_self, rfl, Option.some.inj hc'⟩
    · rw [List.getElem?_set_ne (Ne.symm hcol)] at hc'
      obtain ⟨p, hp, hp2, hy⟩ := h.attained c' y hc'
      exact ⟨p, List.mem_append_left _ hp, hp2, hy⟩
  apart := by
    refine List.pairwise_append.2 ⟨h.apart, List.pairwise_singleton _ _, fun p hp q hq hcol => ?_⟩
    obtain rfl := List.mem_singleton.1 hq
    obtain ⟨y, hy, hle⟩ := h.bounded p hp
    rw [show p.2 = c from hcol, hc] at hy
    obtain rfl := Option.some.inj hy
    exact hle.trans hfree
  peak _ := by
    have hne : ends ≠ [] := by
      rintro rfl
      cases hc
    obtain ⟨t, ht⟩ := h.peak hne
    refine ⟨t, ?_⟩
    rw [List.length_set, List.filter_append, List.length_append]
    exact ht.trans (Nat.le_add_right _ _)

theorem firstFit_length (es : List ι) : (firstFit start finish ends es).1.length = es.length := by
  induction es generalizing ends with
  | nil => rfl
  | cons e es ih =>
    rw [firstFit]
    split
    · rw [List.length_cons, List.length_cons, ih]
    · rw [List.length_cons, List.length_cons, ih]

theorem Fits.firstFit {es : List ι} (h : Fits start finish ends placed) (hpos : ∀ e ∈ es, start e < finish e)
    (hsorted : es.Pairwise fun e f => start e ≤ start f) (hlast : ∀ p ∈ placed, ∀ e ∈ es, start p.1 ≤ start e) :
    Fits start finish (IntervalColumns.firstFit start finish ends es).2
      (placed ++ es.zip (IntervalColumns.firstFit start finish ends es).1) := by
  induction es generalizing ends placed with
  | nil =>
    rw [IntervalColumns.firstFit, List.zip_nil_left, List.append_nil]
    exact h
  | cons e es ih =>
    obtain ⟨hfirst, hrest⟩ := List.pairwise_cons.1 hsorted
    have hpos' : ∀ f ∈ es, start f < finish f := fun f hf => hpos f (List.mem_cons_of_mem _ hf)
    have hlast' : ∀ c, ∀ p ∈ placed ++ [(e, c)], ∀ f ∈ es, start p.1 ≤ start f := by
      intro c p hp f hf
      rcases List.mem_append.1 hp with hp | hp
      · exact hlast p hp f (List.mem_cons_of_mem _ hf)
      · obtain rfl := List.mem_singleton.1 hp
        exact hfirst f hf
    rw [IntervalColumns.firstFit]
    split
    · next hnone =>
      have hbusy : ∀ x ∈ ends, start e < x := fun x hx => by
        have := List.findIdx?_eq_none_iff.1 hnone x hx
        simpa using this
      have hstep := h.opened (fun p hp => hlast p hp e List.mem_cons_self) (hpos e List.mem_cons_self) hbusy
      have := ih hstep hpos' hrest (hlast' _)
      rwa [List.append_assoc] at this
    · next c hsome =>
      obtain ⟨hlt, hfree, -⟩ := List.findIdx?_eq_some_iff_getElem.1 hsome
      have hstep := h.reused (hpos e List.mem_cons_self) (List.getElem?_eq_getElem hlt) (of_decide_eq_true hfree)
      have := ih hstep hpos' hrest (hlast' _)
      rwa [List.append_assoc] at this

theorem fits_firstFit {es : List ι} (hpos : ∀ e ∈ es, start e < finish e)
    (hsorted : es.Pairwise fun e f => start e ≤ start f) :
    Fits start finish (firstFit start finish [] es).2 (es.zip (firstFit start finish [] es).1) := by
  have hnil : Fits start finish ([] : List τ) ([] : List (ι × Nat)) :=
    ⟨fun p hp => (by cases hp), fun c x hc => (by cases hc), .nil, fun hne => absurd rfl hne⟩
  have := hnil.firstFit hpos hsorted fun p hp => by cases hp
  rwa [List.nil_append] at this

/-- Two intervals that overlap are in two columns. -/
theorem Fits.col_ne (h : Fits start finish ends placed) {p q : ι × Nat} (hp : p ∈ placed) (hq : q ∈ placed)
    (hne : p.1 ≠ q.1) (hover : Overlap start finish p.1 q.1) : p.2 ≠ q.2 := by
  have hsym : Std.Symm fun p q : ι × Nat => p.2 = q.2 → ¬Overlap start finish p.1 q.1 :=
    ⟨fun p q h hcol hover => h hcol.symm hover.symm⟩
  have hall : placed.Pairwise fun p q => p.2 = q.2 → ¬Overlap start finish p.1 q.1 :=
    h.apart.imp fun {p q} hpq hcol hover => absurd hover.2 (not_lt.2 (hpq hcol))
  exact fun hcol => hall.forall hp hq (fun heq => hne (congrArg Prod.fst heq)) hcol hover

/-- Those that run at an instant are in columns of their own. -/
theorem Fits.running_columns (h : Fits start finish ends placed) (t : τ) :
    ((placed.filter fun p => runsAt start finish t p.1).map Prod.snd).Subperm (List.range ends.length) := by
  have hnodup : ((placed.filter fun p => runsAt start finish t p.1).map Prod.snd).Nodup := by
    refine List.pairwise_map.2 ((h.apart.filter _).imp_of_mem fun {p q} hp hq hpq hcol => ?_)
    have hp := runsAt_iff.1 (List.mem_filter.1 hp).2
    have hq := runsAt_iff.1 (List.mem_filter.1 hq).2
    exact absurd ((hpq hcol).trans hq.1) (not_le.2 hp.2)
  refine hnodup.subperm fun c hc => ?_
  obtain ⟨p, hp, rfl⟩ := List.mem_map.1 hc
  obtain ⟨x, hx, -⟩ := h.bounded p (List.mem_filter.1 hp).1
  exact List.mem_range.2 (List.getElem?_eq_some_iff.1 hx).1

/-- No more intervals run at an instant than there are columns. -/
theorem Fits.running_le (h : Fits start finish ends placed) (t : τ) :
    (placed.filter fun p => runsAt start finish t p.1).length ≤ ends.length := by
  have := (h.running_columns t).length_le
  rwa [List.length_map, List.length_range] at this

theorem Fits.ne_nil (h : Fits start finish ends placed) {p : ι × Nat} (hp : p ∈ placed) : ends ≠ [] := by
  rintro rfl
  obtain ⟨x, hx, -⟩ := h.bounded p hp
  cases hx

/-- At some instant every column holds an interval that runs. -/
theorem Fits.all_running (h : Fits start finish ends placed) (hne : ends ≠ []) :
    ∃ t, ∀ c < ends.length, ∃ p ∈ placed, p.2 = c ∧ runsAt start finish t p.1 = true := by
  obtain ⟨t, ht⟩ := h.peak hne
  refine ⟨t, fun c hc => ?_⟩
  have hperm := (h.running_columns t).perm_of_length_le (by rwa [List.length_map, List.length_range])
  obtain ⟨p, hp, hcol⟩ := List.mem_map.1 (hperm.mem_iff.2 (List.mem_range.2 hc))
  obtain ⟨hmem, hruns⟩ := List.mem_filter.1 hp
  exact ⟨p, hmem, hcol, hruns⟩

end

/-! ## Groups -/

section
variable (start finish : ι → τ) (floor : τ) (day : List ι)

/-- Two intervals of the day with a chain of overlaps between them. -/
def Linked : ι → ι → Prop := Relation.ReflTransGen fun e f => e ∈ day ∧ f ∈ day ∧ Overlap start finish e f

/-- An interval linked to one that starts below the floor. -/
def Early (e : ι) : Prop := ∃ f, Linked start finish day e f ∧ start f < floor

/-- What a group holds together. -/
def Together (e f : ι) : Prop := Linked start finish day e f ∨ (Early start finish floor day e ∧ Early start finish floor day f)

/-- How many of the intervals linked to one run at once, at any instant. -/
def counts (e : ι) : Set ℕ :=
  Set.range fun t => {f | f ∈ day ∧ Linked start finish day e f ∧ start f ≤ t ∧ t < finish f}.ncard

end

section
variable {start finish : ι → τ} {floor : τ} {day : List ι} {e f g : ι}

theorem Linked.symm (h : Linked start finish day e f) : Linked start finish day f e := by
  induction h with
  | refl => exact .refl
  | tail _ hstep ih => exact .head ⟨hstep.2.1, hstep.1, hstep.2.2.symm⟩ ih

theorem Linked.mem (h : Linked start finish day e f) (he : e ∈ day) : f ∈ day := by
  induction h with
  | refl => exact he
  | tail _ hstep _ => exact hstep.2.1

theorem Linked.early (h : Linked start finish day e f) (hf : Early start finish floor day f) :
    Early start finish floor day e := by
  obtain ⟨x, hx, hlow⟩ := hf
  exact ⟨x, h.trans hx, hlow⟩

theorem Together.symm (h : Together start finish floor day e f) : Together start finish floor day f e :=
  h.imp Linked.symm And.symm

theorem Together.trans (h : Together start finish floor day e f) (h' : Together start finish floor day f g) :
    Together start finish floor day e g := by
  rcases h with h | h <;> rcases h' with h' | h'
  · exact .inl (Relation.ReflTransGen.trans h h')
  · exact .inr ⟨h.early h'.1, h'.2⟩
  · exact .inr ⟨h.1, h'.symm.early h.2⟩
  · exact .inr ⟨h.1, h'.2⟩

theorem counts_congr (h : Linked start finish day e f) : counts start finish day e = counts start finish day f := by
  have hsame : ∀ x, Linked start finish day e x ↔ Linked start finish day f x :=
    fun x => ⟨fun hx => h.symm.trans hx, fun hx => Relation.ReflTransGen.trans h hx⟩
  unfold counts
  simp only [hsame]

variable {es group : List ι} {maxEnd : τ}

theorem flatten_groupsOf : (groupsOf start finish floor es group maxEnd).flatten = group ++ es := by
  induction es generalizing group maxEnd with
  | nil => simp [groupsOf]
  | cons e es ih =>
    rw [groupsOf]
    split
    · rw [List.flatten_cons, ih]
      rfl
    · rw [ih, List.append_assoc]
      rfl

theorem mem_of_mem_groupsOf {g : List ι} (hg : g ∈ groupsOf start finish floor es group maxEnd) (he : e ∈ g) :
    e ∈ group ++ es := by
  rw [← @flatten_groupsOf _ _ _ start finish floor es group maxEnd]
  exact List.mem_flatten.2 ⟨g, hg, he⟩

/-- Whatever comes in a later group starts when the ones before have finished, and not below the floor. -/
theorem groupsOf_apart (hsorted : (group ++ es).Pairwise fun e f => start e ≤ start f)
    (hends : ∀ e ∈ group, finish e ≤ maxEnd) (hfloor : floor ≤ maxEnd) :
    (groupsOf start finish floor es group maxEnd).Pairwise fun g g' =>
      ∀ e ∈ g, ∀ f ∈ g', finish e ≤ start f ∧ floor ≤ start f := by
  induction es generalizing group maxEnd with
  | nil => exact List.pairwise_singleton _ _
  | cons e es ih =>
    rw [groupsOf]
    split
    · next hcut =>
      have hrest := (List.pairwise_append.1 hsorted).2.1
      refine List.pairwise_cons.2 ⟨fun g hg x hx f hf => ?_, ?_⟩
      · have hle : start e ≤ start f := by
          rcases List.mem_cons.1 (mem_of_mem_groupsOf hg hf) with rfl | hf
          · exact le_refl _
          · exact (List.pairwise_cons.1 hrest).1 f hf
        exact ⟨((hends x hx).trans hcut.2).trans hle, (hfloor.trans hcut.2).trans hle⟩
      · refine ih hrest (fun x hx => ?_) (le_max_left _ _)
        obtain rfl := List.mem_singleton.1 hx
        exact le_max_right _ _
    · refine ih (by rwa [List.append_assoc]) (fun x hx => ?_) (hfloor.trans (le_max_left _ _))
      rcases List.mem_append.1 hx with hx | hx
      · exact (hends x hx).trans (le_max_left _ _)
      · obtain rfl := List.mem_singleton.1 hx
        exact le_max_right _ _

/-- An interval joins a group that is not over: one of the group is still running, or all is below the floor. -/
theorem groupsOf_together (hsorted : (group ++ es).Pairwise fun e f => start e ≤ start f)
    (hpos : ∀ e ∈ group ++ es, start e < finish e) (hday : ∀ e ∈ group ++ es, e ∈ day)
    (hends : ∀ e ∈ group, finish e ≤ maxEnd) (hmax : maxEnd = floor ∨ ∃ e ∈ group, finish e = maxEnd)
    (htogether : ∀ e ∈ group, ∀ f ∈ group, Together start finish floor day e f) :
    ∀ g ∈ groupsOf start finish floor es group maxEnd, ∀ e ∈ g, ∀ f ∈ g, Together start finish floor day e f := by
  induction es generalizing group maxEnd with
  | nil =>
    intro g hg
    obtain rfl := List.mem_singleton.1 hg
    exact htogether
  | cons e es ih =>
    have hself : Together start finish floor day e e := .inl .refl
    rw [groupsOf]
    split
    · intro g hg
      rcases List.mem_cons.1 hg with rfl | hg
      · exact htogether
      · refine ih (List.pairwise_append.1 hsorted).2.1 (fun x hx => hpos x (List.mem_append_right _ hx))
          (fun x hx => hday x (List.mem_append_right _ hx)) (fun x hx => ?_) ?_ (fun x hx y hy => ?_) g hg
        · obtain rfl := List.mem_singleton.1 hx
          exact le_max_right _ _
        · rcases le_total (finish e) floor with hle | hle
          · exact .inl (max_eq_left hle)
          · exact .inr ⟨e, List.mem_cons_self, (max_eq_right hle).symm⟩
        · obtain rfl := List.mem_singleton.1 hx
          obtain rfl := List.mem_singleton.1 hy
          exact hself
    · next hcut =>
      have hin : e ∈ group ++ e :: es := List.mem_append_right _ List.mem_cons_self
      have hjoin : ∀ x ∈ group, Together start finish floor day x e := by
        intro x hx
        have hopen : start e < maxEnd := by
          by_contra hle
          exact hcut ⟨List.ne_nil_of_mem hx, not_lt.1 hle⟩
        rcases hmax with rfl | ⟨y, hy, rfl⟩
        · have hlow : start x < maxEnd := (hpos x (List.mem_append_left _ hx)).trans_le (hends x hx)
          exact .inr ⟨⟨x, .refl, hlow⟩, ⟨e, .refl, hopen⟩⟩
        · have hle : start y ≤ start e := (List.pairwise_append.1 hsorted).2.2 y hy e List.mem_cons_self
          have hlink : Linked start finish day y e :=
            .single ⟨hday y (List.mem_append_left _ hy), hday e hin, hle.trans_lt (hpos e hin), hopen⟩
          exact (htogether x hx y hy).trans (.inl hlink)
      have happend : group ++ e :: es = (group ++ [e]) ++ es := by rw [List.append_assoc]; rfl
      rw [happend] at hsorted hpos hday
      refine ih hsorted hpos hday (fun x hx => ?_) ?_ fun x hx y hy => ?_
      · rcases List.mem_append.1 hx with hx | hx
        · exact (hends x hx).trans (le_max_left _ _)
        · obtain rfl := List.mem_singleton.1 hx
          exact le_max_right _ _
      · rcases le_total maxEnd (finish e) with hle | hle
        · exact .inr ⟨e, List.mem_append_right _ List.mem_cons_self, (max_eq_right hle).symm⟩
        · rw [max_eq_left hle]
          exact hmax.imp_right fun ⟨y, hy, h⟩ => ⟨y, List.mem_append_left _ hy, h⟩
      · rcases List.mem_append.1 hx with hin | hlast <;> rcases List.mem_append.1 hy with hin' | hlast'
        · exact htogether x hin y hin'
        · rw [List.mem_singleton.1 hlast']
          exact hjoin x hin
        · rw [List.mem_singleton.1 hlast]
          exact (hjoin y hin').symm
        · rw [List.mem_singleton.1 hlast, List.mem_singleton.1 hlast']
          exact hself

/-! ## A sorted day -/

theorem exists_group (he : e ∈ day) : ∃ g ∈ groupsOf start finish floor day [] floor, e ∈ g := by
  rw [← List.nil_append day, ← @flatten_groupsOf _ _ _ start finish floor day [] floor] at he
  exact List.mem_flatten.1 he

theorem group_sublist {g : List ι} (hg : g ∈ groupsOf start finish floor day [] floor) :
    g.Sublist day := by
  have := List.sublist_flatten_of_mem hg
  rwa [flatten_groupsOf, List.nil_append] at this

section
variable (hsorted : day.Pairwise fun e f => start e ≤ start f) (hpos : ∀ e ∈ day, start e < finish e)

include hsorted

theorem groups_apart : (groupsOf start finish floor day [] floor).Pairwise fun g g' =>
    ∀ e ∈ g, ∀ f ∈ g', finish e ≤ start f ∧ floor ≤ start f :=
  groupsOf_apart (by rwa [List.nil_append]) (fun e he => by cases he) (le_refl _)

/-- Two groups are apart, whichever comes first. -/
theorem groups_disjoint {g g' : List ι} (hg : g ∈ groupsOf start finish floor day [] floor)
    (hg' : g' ∈ groupsOf start finish floor day [] floor) (hne : g ≠ g') :
    ∀ x ∈ g, ∀ y ∈ g', ¬Overlap start finish x y ∧ ¬(start x < floor ∧ start y < floor) := by
  have hsym : Std.Symm fun g g' : List ι => ∀ x ∈ g, ∀ y ∈ g',
      ¬Overlap start finish x y ∧ ¬(start x < floor ∧ start y < floor) := by
    refine ⟨fun g g' h x hx y hy => ?_⟩
    obtain ⟨hover, hlow⟩ := h y hy x hx
    exact ⟨fun h => hover h.symm, fun h => hlow h.symm⟩
  have hall : (groupsOf start finish floor day [] floor).Pairwise fun g g' => ∀ x ∈ g, ∀ y ∈ g',
      ¬Overlap start finish x y ∧ ¬(start x < floor ∧ start y < floor) :=
    (groups_apart hsorted).imp fun {g g'} h x hx y hy =>
      ⟨fun hover => absurd hover.2 (not_lt.2 (h x hx y hy).1), fun hlow => absurd hlow.2 (not_lt.2 (h x hx y hy).2)⟩
  exact hall.forall hg hg' hne

include hpos

theorem group_unique {g g' : List ι} (hg : g ∈ groupsOf start finish floor day [] floor)
    (hg' : g' ∈ groupsOf start finish floor day [] floor) (he : e ∈ g) (he' : e ∈ g') : g = g' := by
  by_contra hne
  have hrun := hpos e ((group_sublist hg).subset he)
  exact (groups_disjoint hsorted hg hg' hne e he e he').1 ⟨hrun, hrun⟩

/-- A group is what is linked to one of its intervals, and the early chains are in one group. -/
theorem mem_group_iff {g : List ι} (hg : g ∈ groupsOf start finish floor day [] floor) (he : e ∈ g) (hf : f ∈ day) :
    f ∈ g ↔ Together start finish floor day e f := by
  have htogether := @groupsOf_together _ _ _ start finish floor day day [] floor (by rwa [List.nil_append])
    (by rwa [List.nil_append]) (fun x hx => by rwa [List.nil_append] at hx) (fun x hx => by cases hx) (.inl rfl)
    (fun x hx => by cases hx) g hg
  refine ⟨fun hfg => htogether e he f hfg, ?_⟩
  have hother := fun g' (hg' : g' ∈ groupsOf start finish floor day [] floor) (hne : g ≠ g') =>
    groups_disjoint hsorted hg hg' hne
  have hgroup : ∀ x ∈ day, ∃ g' ∈ groupsOf start finish floor day [] floor, x ∈ g' :=
    fun x hx => exists_group hx
  have hlinked : ∀ x ∈ g, ∀ y, Linked start finish day x y → y ∈ g := by
    intro x hx y hxy
    induction hxy with
    | refl => exact hx
    | @tail y z _ hstep ih =>
      obtain ⟨g', hg', hz⟩ := hgroup z hstep.2.1
      by_cases hsame : g = g'
      · rw [hsame]
        exact hz
      · exact absurd hstep.2.2 (hother g' hg' hsame y ih z hz).1
  rintro (h | ⟨⟨e', he', hlow⟩, ⟨f', hf', hlow'⟩⟩)
  · exact hlinked e he f h
  · obtain ⟨g', hg', hf'g⟩ := hgroup f' (hf'.mem hf)
    by_cases hsame : g = g'
    · rw [← hsame] at hf'g
      exact hlinked f' hf'g f hf'.symm
    · exact absurd ⟨hlow, hlow'⟩ (hother g' hg' hsame e' (hlinked e he e' he') f' hf'g).2

theorem fits_group {g : List ι} (hg : g ∈ groupsOf start finish floor day [] floor) :
    Fits start finish (firstFit start finish [] g).2 (g.zip (firstFit start finish [] g).1) := by
  have hsub := group_sublist hg
  exact fits_firstFit (fun e he => hpos e (hsub.subset he)) (hsorted.sublist hsub)

/-- A group opens as many columns as intervals run at once in one of its chains, and no chain has more. -/
theorem group_peak (hnodup : day.Nodup) {g : List ι} (hg : g ∈ groupsOf start finish floor day [] floor) (hne : g ≠ []) :
    (∃ f ∈ g, (firstFit start finish [] g).2.length ∈ counts start finish day f) ∧
      ∀ e ∈ g, (firstFit start finish [] g).2.length ∈ upperBounds (counts start finish day e) := by
  classical
  have hfits := fits_group hsorted hpos hg
  have hsub := group_sublist hg
  have hfilter : ∀ t, ((g.zip (firstFit start finish [] g).1).filter fun p => runsAt start finish t p.1).length =
      (g.filter (runsAt start finish t)).length := by
    intro t
    have hfst : (g.zip (firstFit start finish [] g).1).map Prod.fst = g :=
      List.map_fst_zip (by rw [firstFit_length])
    conv_rhs => rw [← hfst, List.filter_map, List.length_map]
    rfl
  have hcard : ∀ t, {f | f ∈ g ∧ runsAt start finish t f = true}.ncard = (g.filter (runsAt start finish t)).length := by
    intro t
    rw [← List.toFinset_card_of_nodup ((hnodup.sublist hsub).filter _), ← Set.ncard_coe_finset]
    congr 1
    ext f
    simp
  have hfinite : ∀ t, {f | f ∈ g ∧ runsAt start finish t f = true}.Finite := fun t =>
    (List.finite_toSet g).subset fun f hf => hf.1
  -- those linked to one of the group are in it
  have hwithin : ∀ e ∈ g, ∀ t, {f | f ∈ day ∧ Linked start finish day e f ∧ start f ≤ t ∧ t < finish f} ⊆
      {f | f ∈ g ∧ runsAt start finish t f = true} := fun e he t f hf =>
    ⟨(mem_group_iff hsorted hpos hg he hf.1).2 (.inl hf.2.1), runsAt_iff.2 hf.2.2⟩
  have hbound : ∀ e ∈ g, (firstFit start finish [] g).2.length ∈ upperBounds (counts start finish day e) := by
    rintro e he _ ⟨t, rfl⟩
    calc {f | f ∈ day ∧ Linked start finish day e f ∧ start f ≤ t ∧ t < finish f}.ncard
        ≤ {f | f ∈ g ∧ runsAt start finish t f = true}.ncard := Set.ncard_le_ncard (hwithin e he t) (hfinite t)
      _ = (g.filter (runsAt start finish t)).length := hcard t
      _ ≤ (firstFit start finish [] g).2.length := by rw [← hfilter]; exact hfits.running_le t
  refine ⟨?_, hbound⟩
  have hends : (firstFit start finish [] g).2 ≠ [] := by
    intro hnil
    obtain ⟨e, he⟩ := List.exists_mem_of_ne_nil g hne
    obtain ⟨p, hp, -⟩ : ∃ p ∈ g.zip (firstFit start finish [] g).1, p.1 = e := by
      have hfst : (g.zip (firstFit start finish [] g).1).map Prod.fst = g :=
        List.map_fst_zip (by rw [firstFit_length])
      rw [← hfst] at he
      exact List.mem_map.1 he
    obtain ⟨x, hx, -⟩ := hfits.bounded p hp
    rw [hnil] at hx
    cases hx
  obtain ⟨t, ht⟩ := hfits.peak hends
  rw [hfilter] at ht
  have hpositive := List.length_pos_iff.2 hends
  obtain ⟨f, hf⟩ : ∃ f, f ∈ g.filter (runsAt start finish t) := by
    cases hlist : g.filter (runsAt start finish t) with
    | nil =>
      rw [hlist, List.length_nil] at ht
      omega
    | cons f l => exact ⟨f, List.mem_cons_self⟩
  obtain ⟨hfg, hfruns⟩ := List.mem_filter.1 hf
  refine ⟨f, hfg, t, le_antisymm (hbound f hfg ⟨t, rfl⟩) ?_⟩
  -- what runs with it is linked to it
  have hback : {x | x ∈ g ∧ runsAt start finish t x = true} ⊆
      {x | x ∈ day ∧ Linked start finish day f x ∧ start x ≤ t ∧ t < finish x} := fun x hx =>
    ⟨hsub.subset hx.1, .single ⟨hsub.subset hfg, hsub.subset hx.1, overlap_of_runsAt hfruns hx.2⟩, runsAt_iff.1 hx.2⟩
  calc (firstFit start finish [] g).2.length ≤ (g.filter (runsAt start finish t)).length := ht
    _ = {x | x ∈ g ∧ runsAt start finish t x = true}.ncard := (hcard t).symm
    _ ≤ _ := Set.ncard_le_ncard hback ((hfinite t).subset (hwithin f hfg t))

/-- Every group has the columns its intervals' chains need exactly when the chains below the floor need as
many as each other. -/
theorem columns_iff (hnodup : day.Nodup) :
    (∀ g ∈ groupsOf start finish floor day [] floor, ∀ e ∈ g,
      IsGreatest (counts start finish day e) (firstFit start finish [] g).2.length) ↔
    ∀ e ∈ day, ∀ f ∈ day, start e < floor → start f < floor → ∀ n, IsGreatest (counts start finish day e) n →
      IsGreatest (counts start finish day f) n := by
  have hgroup : ∀ x ∈ day, ∃ g ∈ groupsOf start finish floor day [] floor, x ∈ g :=
    fun x hx => exists_group hx
  constructor
  · intro h e he f hf hlow hlow' n hn
    obtain ⟨g, hg, heg⟩ := hgroup e he
    have hfg := (mem_group_iff hsorted hpos hg heg hf).2 (.inr ⟨⟨e, .refl, hlow⟩, ⟨f, .refl, hlow'⟩⟩)
    rw [hn.unique (h g hg e heg)]
    exact h g hg f hfg
  · intro h g hg e he
    have hday := (group_sublist hg).subset
    obtain ⟨⟨f, hf, hcount⟩, hbound⟩ := group_peak hsorted hpos hnodup hg (List.ne_nil_of_mem he)
    have hpeak : IsGreatest (counts start finish day f) (firstFit start finish [] g).2.length := ⟨hcount, hbound f hf⟩
    rcases (mem_group_iff hsorted hpos hg he (hday hf)).1 hf with hlink | ⟨⟨e', he', hlow⟩, ⟨f', hf', hlow'⟩⟩
    · rw [counts_congr hlink]
      exact hpeak
    · rw [counts_congr hf'] at hpeak
      rw [counts_congr he']
      exact h f' (hf'.mem (hday hf)) e' (he'.mem (hday he)) hlow' hlow _ hpeak

end

end

end IntervalColumns
