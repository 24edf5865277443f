import ClientBridge.Ledger.Journals
import ClientBridge.Library.Doubles
import ClientBridge.Library.IntervalColumns
import ClientBridge.Scheduling.RecurrencePreviews

/-!
# A day of visits side by side

`layoutDay` takes the visits that meet a day by their starts, chains those that overlap into groups and
splits each group into first-fit columns.  Positions are doubles, so that the place of a column and its width
are rounded each on its own.
-/

namespace ClientBridge

open Calendar ZoneOffsets IntervalColumns

/-- What the board reads of a visit, or of a class session. -/
structure CalendarEvent where
  id : String
  start : Int
  end_ : Int
  status : String
  staffId : Id
  itemId : Id
  capacity : Int
  bookedCount : Int
  bufferBeforeMin : Int
  bufferAfterMin : Int
  resourceId : Option Id
  deriving DecidableEq, Repr

structure LayoutOptions where
  dayStart : Int
  pxPerMin : ℚ
  minHeightPx : ℚ := 18
  gapPx : ℚ := 1

/-- A visit as it is drawn.  What is not stored: how many columns its group has. -/
structure PositionedEvent where
  event : CalendarEvent
  topPx : ℚ
  heightPx : ℚ
  leftPct : ℚ
  widthPct : ℚ
  colCount : Nat
  deriving DecidableEq, Repr

def minuteOfDay (rules : ZoneRules) (d : Int) : Int :=
  let w := wallTime rules d
  w.hour * 60 + w.minute

/-- The order of `compareEventStart`: by start, and the later end first. -/
def eventStartsFirst (a b : CalendarEvent) : Prop := a.start < b.start ∨ (a.start = b.start ∧ b.end_ ≤ a.end_)

instance : DecidableRel eventStartsFirst := fun _ _ => inferInstanceAs (Decidable (_ ∨ _))

/-- The loop of `flush`: when each column is free again, and the column of each visit, the latest set first. -/
def placeColumns : List CalendarEvent → List Int → List (String × Nat) → List Int × List (String × Nat)
  | [], colEnds, colOf => (colEnds, colOf)
  | e :: group, colEnds, colOf =>
    match colEnds.findIdx? fun end_ => decide (end_ ≤ e.start) with
    | none => placeColumns group (colEnds ++ [e.end_]) ((e.id, colEnds.length) :: colOf)
    | some col => placeColumns group (colEnds.set col e.end_) ((e.id, col) :: colOf)

/-- `(col / colCount) * 100`. -/
def columnLeft (colCount col : Nat) : ℚ := Doubles.round 53 (Doubles.round 53 (col / colCount) * 100)

/-- `(1 / colCount) * 100`. -/
def columnWidth (colCount : Nat) : ℚ := Doubles.round 53 (Doubles.round 53 (1 / colCount) * 100)

/-- A group as it is pushed. -/
def flush (rules : ZoneRules) (opts : LayoutOptions) (group : List CalendarEvent) : List PositionedEvent :=
  let dayEnd := addDays rules opts.dayStart 1
  -- wall-clock minutes, as the hour lines are drawn
  let startMinute := fun d => if d ≤ opts.dayStart then 0 else minuteOfDay rules d
  let endMinute := fun d => if dayEnd ≤ d then 1440 else minuteOfDay rules d
  let columns := placeColumns group [] []
  let colCount := columns.1.length
  group.map fun e =>
    let col := (columns.2.lookup e.id).getD 0
    let startMin := startMinute e.start
    let endMin := max startMin (endMinute e.end_)
    let height := Doubles.round 53 (((endMin - startMin : Int) : ℚ) * opts.pxPerMin)
    { event := e
      topPx := Doubles.round 53 (startMin * opts.pxPerMin)
      heightPx := max (Doubles.round 53 (height - opts.gapPx)) opts.minHeightPx
      leftPct := columnLeft colCount col
      widthPct := columnWidth colCount
      colCount := colCount }

/-- The loop of `layoutDay`; `groupMaxEnd` is reset to 0. -/
def layoutLoop (rules : ZoneRules) (opts : LayoutOptions) :
    List CalendarEvent → List CalendarEvent → Int → List PositionedEvent → List PositionedEvent
  | [], group, _, out => out ++ flush rules opts group
  | e :: inDay, group, groupMaxEnd, out =>
    if group ≠ [] ∧ groupMaxEnd ≤ e.start then
      layoutLoop rules opts inDay [e] (max 0 e.end_) (out ++ flush rules opts group)
    else layoutLoop rules opts inDay (group ++ [e]) (max groupMaxEnd e.end_) out

/-- The visits that meet the day. -/
def eventsInDay (rules : ZoneRules) (events : List CalendarEvent) (dayStart : Int) : List CalendarEvent :=
  events.filter fun e => decide (e.start < addDays rules dayStart 1) && decide (dayStart < e.end_)

def layoutDay (rules : ZoneRules) (events : List CalendarEvent) (opts : LayoutOptions) : List PositionedEvent :=
  layoutLoop rules opts ((eventsInDay rules events opts.dayStart).insertionSort eventStartsFirst) [] 0 []

/-! ## What is shown -/

/-- Two visits run at the same time. -/
def CalendarEvent.Overlaps (a b : CalendarEvent) : Prop := a.start < b.end_ ∧ b.start < a.end_

/-- A chain of overlaps between two visits of a list. -/
def SameChain (day : List CalendarEvent) : CalendarEvent → CalendarEvent → Prop :=
  Relation.ReflTransGen fun a b => a ∈ day ∧ b ∈ day ∧ a.Overlaps b

/-- How many visits of the chain of one run at an instant, for any instant. -/
def runningCounts (day : List CalendarEvent) (e : CalendarEvent) : Set ℕ :=
  Set.range fun t => {f | f ∈ day ∧ SameChain day e f ∧ f.start ≤ t ∧ t < f.end_}.ncard

/-- A layout that shows the visits that meet the day: each once and no other; those that overlap in columns
of one width, side by side and within the lane; with as many columns as visits of its chain run at once. -/
structure ShowsDay (rules : ZoneRules) (events : List CalendarEvent) (dayStart : Int) (out : List PositionedEvent) :
    Prop where
  once : (out.map PositionedEvent.event).Perm (eventsInDay rules events dayStart)
  within : ∀ p ∈ out, 0 ≤ p.leftPct ∧ 0 < p.widthPct ∧ p.leftPct + p.widthPct ≤ 100
  apart : ∀ p ∈ out, ∀ q ∈ out, p.event ≠ q.event → p.event.Overlaps q.event →
    p.widthPct = q.widthPct ∧ (p.leftPct + p.widthPct ≤ q.leftPct ∨ q.leftPct + q.widthPct ≤ p.leftPct)
  columns : ∀ p ∈ out, IsGreatest (runningCounts (eventsInDay rules events dayStart) p.event) p.colCount

/-! ## The layout, by groups -/

theorem placeColumns_eq (group : List CalendarEvent) (colEnds : List Int) (colOf : List (String × Nat)) :
    placeColumns group colEnds colOf =
      ((firstFit CalendarEvent.start CalendarEvent.end_ colEnds group).2,
        ((group.zip (firstFit CalendarEvent.start CalendarEvent.end_ colEnds group).1).map
          fun x => (x.1.id, x.2)).reverse ++ colOf) := by
  induction group generalizing colEnds colOf with
  | nil => rfl
  | cons e group ih =>
    rw [placeColumns, firstFit]
    cases colEnds.findIdx? fun x => decide (x ≤ e.start) with
    | none =>
      dsimp only
      rw [ih, List.zip_cons_cons, List.map_cons, List.reverse_cons, List.append_assoc]
      rfl
    | some col =>
      dsimp only
      rw [ih, List.zip_cons_cons, List.map_cons, List.reverse_cons, List.append_assoc]
      rfl

theorem layoutLoop_eq (rules : ZoneRules) (opts : LayoutOptions) (inDay group : List CalendarEvent) (groupMaxEnd : Int)
    (out : List PositionedEvent) : layoutLoop rules opts inDay group groupMaxEnd out =
      out ++ (groupsOf CalendarEvent.start CalendarEvent.end_ 0 inDay group groupMaxEnd).flatMap (flush rules opts) := by
  induction inDay generalizing group groupMaxEnd out with
  | nil => rw [layoutLoop, groupsOf, List.flatMap_singleton]
  | cons e inDay ih =>
    rw [layoutLoop, groupsOf]
    split
    · rw [ih, List.flatMap_cons, List.append_assoc]
    · rw [ih]

theorem lookup_of_mem {l : List (String × Nat)} (hl : (l.map Prod.fst).Nodup) {k : String} {v : Nat} (h : (k, v) ∈ l) :
    l.lookup k = some v := by
  induction l with
  | nil => cases h
  | cons x l ih =>
    obtain ⟨a, b⟩ := x
    rw [List.map_cons, List.nodup_cons] at hl
    rw [List.lookup_cons]
    rcases List.mem_cons.1 h with heq | hmem
    · obtain ⟨rfl, rfl⟩ := Prod.mk.inj heq
      rw [beq_self_eq_true]
    · have hne : k ≠ a := fun hka => hl.1 (hka ▸ List.mem_map.2 ⟨_, hmem, rfl⟩)
      rw [beq_eq_false_iff_ne.2 hne]
      exact ih hl.2 hmem

section
variable {rules : ZoneRules} {opts : LayoutOptions} {group : List CalendarEvent}

/-- A visit of a group stands in the column it was put into. -/
theorem mem_flush (hids : (group.map CalendarEvent.id).Nodup) {p : PositionedEvent} (hp : p ∈ flush rules opts group) :
    p.colCount = (firstFit CalendarEvent.start CalendarEvent.end_ [] group).2.length ∧
      p.widthPct = columnWidth p.colCount ∧
      ∃ col : Nat, (p.event, col) ∈ group.zip (firstFit CalendarEvent.start CalendarEvent.end_ [] group).1 ∧
        p.leftPct = columnLeft p.colCount col := by
  unfold flush at hp
  dsimp only at hp
  rw [placeColumns_eq, List.append_nil] at hp
  obtain ⟨e, he, rfl⟩ := List.mem_map.1 hp
  have hfst : (group.zip (firstFit CalendarEvent.start CalendarEvent.end_ [] group).1).map Prod.fst = group :=
    List.map_fst_zip (by rw [firstFit_length])
  obtain ⟨⟨e', col⟩, hin, rfl⟩ : ∃ x ∈ group.zip (firstFit CalendarEvent.start CalendarEvent.end_ [] group).1, x.1 = e := by
    rw [← hfst] at he
    exact List.mem_map.1 he
  have hkeys : ((((group.zip (firstFit CalendarEvent.start CalendarEvent.end_ [] group).1).map
      fun x => (x.1.id, x.2)).reverse).map Prod.fst).Nodup := by
    rw [List.map_reverse, List.nodup_reverse, List.map_map]
    have : (group.zip (firstFit CalendarEvent.start CalendarEvent.end_ [] group).1).map
        (Prod.fst ∘ fun x : CalendarEvent × Nat => (x.1.id, x.2)) = group.map CalendarEvent.id := by
      conv_rhs => rw [← hfst, List.map_map]
      rfl
    rwa [this]
  have hcol := lookup_of_mem hkeys (List.mem_reverse.2 (List.mem_map.2 ⟨(e', col), hin, rfl⟩))
  refine ⟨rfl, rfl, col, hin, ?_⟩
  dsimp only at hcol ⊢
  rw [hcol, Option.getD_some]

theorem flush_events : (flush rules opts group).map PositionedEvent.event = group := by
  unfold flush
  rw [List.map_map]
  exact List.map_id _

end

/-- The visits of a day in the order they are laid out. -/
theorem sorted_day (events : List CalendarEvent) :
    (events.insertionSort eventStartsFirst).Pairwise fun e f => e.start ≤ f.start := by
  have htotal : Std.Total eventStartsFirst := ⟨fun a b => by unfold eventStartsFirst; omega⟩
  have htrans : IsTrans CalendarEvent eventStartsFirst := ⟨fun a b c => by unfold eventStartsFirst; omega⟩
  refine (List.pairwise_insertionSort eventStartsFirst events).imp fun {a b} h => ?_
  unfold eventStartsFirst at h
  omega

section
variable {rules : ZoneRules} {opts : LayoutOptions} {events : List CalendarEvent}

/-- The visits that meet the day, in order. -/
def dayOrder (rules : ZoneRules) (events : List CalendarEvent) (dayStart : Int) : List CalendarEvent :=
  (eventsInDay rules events dayStart).insertionSort eventStartsFirst

/-- The groups of a day. -/
def dayGroups (rules : ZoneRules) (events : List CalendarEvent) (dayStart : Int) : List (List CalendarEvent) :=
  groupsOf CalendarEvent.start CalendarEvent.end_ 0 (dayOrder rules events dayStart) [] 0

theorem dayOrder_perm : (dayOrder rules events opts.dayStart).Perm (eventsInDay rules events opts.dayStart) :=
  List.perm_insertionSort _ _

theorem layoutDay_eq : layoutDay rules events opts = (dayGroups rules events opts.dayStart).flatMap (flush rules opts) := by
  rw [layoutDay, layoutLoop_eq, List.nil_append]
  rfl

theorem layoutDay_events : (layoutDay rules events opts).map PositionedEvent.event = dayOrder rules events opts.dayStart := by
  rw [layoutDay_eq, List.map_flatMap]
  simp only [flush_events]
  rw [List.flatMap_id', dayGroups, flatten_groupsOf, List.nil_append]

theorem dayOrder_ids (hids : (events.map CalendarEvent.id).Nodup) :
    ((dayOrder rules events opts.dayStart).map CalendarEvent.id).Nodup :=
  ((dayOrder_perm.map CalendarEvent.id).nodup_iff).2 (hids.sublist (List.filter_sublist.map _))

theorem dayOrder_pos (hpos : ∀ e ∈ events, e.start < e.end_) : ∀ e ∈ dayOrder rules events opts.dayStart, e.start < e.end_ :=
  fun e he => hpos e (List.mem_of_mem_filter (dayOrder_perm.mem_iff.1 he))

variable (hids : (events.map CalendarEvent.id).Nodup) (hpos : ∀ e ∈ events, e.start < e.end_)

include hids hpos

/-- Where a visit stands: in its group, in a column it was put into. -/
theorem mem_layoutDay {p : PositionedEvent} (hp : p ∈ layoutDay rules events opts) :
    ∃ g ∈ dayGroups rules events opts.dayStart, p.event ∈ g ∧
      p.colCount = (firstFit CalendarEvent.start CalendarEvent.end_ [] g).2.length ∧
      p.widthPct = columnWidth p.colCount ∧
      ∃ col < p.colCount, (p.event, col) ∈ g.zip (firstFit CalendarEvent.start CalendarEvent.end_ [] g).1 ∧
        p.leftPct = columnLeft p.colCount col := by
  rw [layoutDay_eq] at hp
  obtain ⟨g, hg, hp⟩ := List.mem_flatMap.1 hp
  have hsub := group_sublist hg
  have hfits := fits_group (sorted_day _) (dayOrder_pos hpos) hg
  obtain ⟨hcount, hwidth, col, hin, hleft⟩ := mem_flush ((dayOrder_ids hids).sublist (hsub.map _)) hp
  obtain ⟨x, hx, -⟩ := hfits.bounded _ hin
  have hlt := (List.getElem?_eq_some_iff.1 hx).1
  exact ⟨g, hg, (List.of_mem_zip hin).1, hcount, hwidth, col, by rw [hcount]; exact hlt, hin, hleft⟩

omit hpos in
/-- A visit of a group is put into one column. -/
theorem group_keys {g : List CalendarEvent} (hg : g ∈ dayGroups rules events opts.dayStart) :
    ((g.zip (firstFit CalendarEvent.start CalendarEvent.end_ [] g).1).map Prod.fst).Nodup := by
  rw [List.map_fst_zip (by rw [firstFit_length])]
  exact ((dayOrder_ids hids).sublist ((group_sublist hg).map CalendarEvent.id)).of_map _

omit hpos in
/-- Whoever was put into a column is drawn there. -/
theorem placed_mem_layoutDay {g : List CalendarEvent} (hg : g ∈ dayGroups rules events opts.dayStart) {e : CalendarEvent}
    {col : Nat} (hin : (e, col) ∈ g.zip (firstFit CalendarEvent.start CalendarEvent.end_ [] g).1) :
    ∃ p ∈ layoutDay rules events opts, p.event = e ∧
      p.colCount = (firstFit CalendarEvent.start CalendarEvent.end_ [] g).2.length ∧
      p.leftPct = columnLeft p.colCount col ∧ p.widthPct = columnWidth p.colCount := by
  have hgids : (g.map CalendarEvent.id).Nodup := (dayOrder_ids hids).sublist ((group_sublist hg).map CalendarEvent.id)
  have he := (List.of_mem_zip hin).1
  rw [← @flush_events rules opts g] at he
  obtain ⟨p, hp, rfl⟩ := List.mem_map.1 he
  obtain ⟨hcount, hwidth, col', hin', hleft⟩ := mem_flush hgids hp
  -- it was put into one column
  obtain rfl : col' = col := (Prod.mk.inj (List.inj_on_of_nodup_map (group_keys hids hg) hin' hin rfl)).2
  exact ⟨p, by rw [layoutDay_eq]; exact List.mem_flatMap.2 ⟨g, hg, hp⟩, rfl, hcount, hleft, hwidth⟩

end

/-! ## When the columns are right -/

/-- The percentages of so many columns fit: no column meets another, and each is within the lane. -/
structure ColumnsFit (colCount : Nat) : Prop where
  apart : ∀ d < colCount, ∀ c < d, columnLeft colCount c + columnWidth colCount ≤ columnLeft colCount d ∨
    columnLeft colCount d + columnWidth colCount ≤ columnLeft colCount c
  within : ∀ c < colCount, columnLeft colCount c + columnWidth colCount ≤ 100

instance (colCount : Nat) : Decidable (ColumnsFit colCount) :=
  decidable_of_iff (_ ∧ _) ⟨fun h => ⟨h.1, h.2⟩, fun h => ⟨h.apart, h.within⟩⟩

/-- Up to five columns do. -/
theorem columnsFit_small {colCount : Nat} (h : colCount ≤ 5) : ColumnsFit colCount := by
  have hall : ∀ colCount ≤ 5, ColumnsFit colCount := by decide +kernel
  exact hall colCount h

/-- Of six, the fourth runs into the fifth, and the last passes the end of the lane. -/
theorem not_columnsFit_six : ¬ColumnsFit 6 := by decide +kernel

theorem columnLeft_nonneg (colCount col : Nat) : 0 ≤ columnLeft colCount col := by
  have hdiv := Doubles.round_nonneg (p := 53) (x := (col : ℚ) / colCount) (by positivity) (by omega)
  exact Doubles.round_nonneg (mul_nonneg hdiv (by norm_num)) (by omega)

theorem columnWidth_pos {colCount : Nat} (h : 0 < colCount) : 0 < columnWidth colCount := by
  have hdiv := Doubles.round_pos (p := 53) (x := 1 / (colCount : ℚ)) (by positivity) (by omega)
  exact Doubles.round_pos (mul_pos hdiv (by norm_num)) (by omega)

section
variable {rules : ZoneRules} {opts : LayoutOptions} {events : List CalendarEvent}
  (hids : (events.map CalendarEvent.id).Nodup) (hpos : ∀ e ∈ events, e.start < e.end_)

include hids hpos

theorem layoutDay_within {p : PositionedEvent} (hp : p ∈ layoutDay rules events opts) (hfit : ColumnsFit p.colCount) :
    0 ≤ p.leftPct ∧ 0 < p.widthPct ∧ p.leftPct + p.widthPct ≤ 100 := by
  obtain ⟨g, -, -, -, hwidth, col, hlt, -, hleft⟩ := mem_layoutDay hids hpos hp
  rw [hleft, hwidth]
  exact ⟨columnLeft_nonneg _ _, columnWidth_pos ((Nat.zero_le col).trans_lt hlt), hfit.within col hlt⟩

theorem layoutDay_apart {p q : PositionedEvent} (hp : p ∈ layoutDay rules events opts) (hq : q ∈ layoutDay rules events opts)
    (hfit : ColumnsFit p.colCount) (hne : p.event ≠ q.event) (hover : p.event.Overlaps q.event) :
    p.widthPct = q.widthPct ∧ (p.leftPct + p.widthPct ≤ q.leftPct ∨ q.leftPct + q.widthPct ≤ p.leftPct) := by
  obtain ⟨g, hg, hpg, hcount, hwidth, col, hlt, hin, hleft⟩ := mem_layoutDay hids hpos hp
  obtain ⟨g', hg', hqg, hcount', hwidth', col', hlt', hin', hleft'⟩ := mem_layoutDay hids hpos hq
  have hday := (group_sublist hg).subset hpg
  have hday' := (group_sublist hg').subset hqg
  have hq_mem : q.event ∈ g := (mem_group_iff (sorted_day _) (dayOrder_pos hpos) hg hpg hday').2
    (.inl (.single ⟨hday, hday', hover⟩))
  obtain rfl := group_unique (sorted_day _) (dayOrder_pos hpos) hg hg' hq_mem hqg
  have hfits := fits_group (sorted_day _) (dayOrder_pos hpos) hg
  have hcols : col ≠ col' := hfits.col_ne hin hin' hne hover
  have hsame : q.colCount = p.colCount := hcount'.trans hcount.symm
  rw [hleft, hwidth, hleft', hwidth', hsame]
  rw [hsame] at hlt'
  rcases Nat.lt_or_gt_of_ne hcols with hless | hgreater
  · exact ⟨rfl, hfit.apart col' hlt' col hless⟩
  · exact ⟨rfl, (hfit.apart col hlt col' hgreater).symm⟩

/-- Where no visit is drawn over another, the percentages of every group fit: at some instant each of its columns holds
a visit. -/
theorem columnsFit_of_apart {g : List CalendarEvent} (hg : g ∈ dayGroups rules events opts.dayStart) {e : CalendarEvent}
    (he : e ∈ g) (hwithin : ∀ p ∈ layoutDay rules events opts, p.leftPct + p.widthPct ≤ 100)
    (hapart : ∀ p ∈ layoutDay rules events opts, ∀ q ∈ layoutDay rules events opts, p.event ≠ q.event →
      p.event.Overlaps q.event → p.leftPct + p.widthPct ≤ q.leftPct ∨ q.leftPct + q.widthPct ≤ p.leftPct) :
    ColumnsFit (firstFit CalendarEvent.start CalendarEvent.end_ [] g).2.length := by
  have hfits := fits_group (sorted_day _) (dayOrder_pos hpos) hg
  obtain ⟨x, hx, -⟩ : ∃ x ∈ g.zip (firstFit CalendarEvent.start CalendarEvent.end_ [] g).1, x.1 = e := by
    have hfst : (g.zip (firstFit CalendarEvent.start CalendarEvent.end_ [] g).1).map Prod.fst = g :=
      List.map_fst_zip (by rw [firstFit_length])
    rw [← hfst] at he
    exact List.mem_map.1 he
  obtain ⟨t, hruns⟩ := hfits.all_running (hfits.ne_nil hx)
  have hdrawn : ∀ c < (firstFit CalendarEvent.start CalendarEvent.end_ [] g).2.length,
      ∃ p ∈ layoutDay rules events opts, p.leftPct = columnLeft (firstFit CalendarEvent.start CalendarEvent.end_ [] g).2.length c ∧
        p.widthPct = columnWidth (firstFit CalendarEvent.start CalendarEvent.end_ [] g).2.length ∧
        (p.event, c) ∈ g.zip (firstFit CalendarEvent.start CalendarEvent.end_ [] g).1 ∧
        runsAt CalendarEvent.start CalendarEvent.end_ t p.event = true := by
    intro c hc
    obtain ⟨⟨f, col⟩, hin, rfl, hrun⟩ := hruns c hc
    obtain ⟨p, hp, rfl, hcount, hleft, hwidth⟩ := placed_mem_layoutDay hids hg hin
    rw [hcount] at hleft hwidth
    exact ⟨p, hp, hleft, hwidth, hin, hrun⟩
  constructor
  · intro d hd c hcd
    obtain ⟨p, hp, hleft, hwidth, hin, hrun⟩ := hdrawn c (hcd.trans hd)
    obtain ⟨q, hq, hleft', hwidth', hin', hrun'⟩ := hdrawn d hd
    have hne : p.event ≠ q.event := by
      intro heq
      rw [heq] at hin
      have := (Prod.mk.inj (List.inj_on_of_nodup_map (group_keys hids hg) hin hin' rfl)).2
      omega
    have hsides := hapart p hp q hq hne (overlap_of_runsAt hrun hrun')
    rwa [hleft, hwidth, hleft', hwidth'] at hsides
  · intro c hc
    obtain ⟨p, hp, hleft, hwidth, -⟩ := hdrawn c hc
    have hlane := hwithin p hp
    rwa [hleft, hwidth] at hlane

end

section
variable {rules : ZoneRules} {opts : LayoutOptions} {events : List CalendarEvent} {dayStart : Int}

theorem runningCounts_eq (e : CalendarEvent) : runningCounts (eventsInDay rules events dayStart) e =
    counts CalendarEvent.start CalendarEvent.end_ (dayOrder rules events dayStart) e := by
  have hmem : ∀ f, f ∈ eventsInDay rules events dayStart ↔ f ∈ dayOrder rules events dayStart := fun f =>
    (List.perm_insertionSort eventStartsFirst _).mem_iff.symm
  unfold runningCounts counts SameChain IntervalColumns.Linked
  simp only [hmem]
  rfl

/-- The chains that begin before 1970 run as many visits at once as each other. -/
def EarlyAlike (rules : ZoneRules) (events : List CalendarEvent) (dayStart : Int) : Prop :=
  ∀ e ∈ eventsInDay rules events dayStart, ∀ f ∈ eventsInDay rules events dayStart, e.start < 0 → f.start < 0 →
    ∀ n, IsGreatest (runningCounts (eventsInDay rules events dayStart) e) n →
      IsGreatest (runningCounts (eventsInDay rules events dayStart) f) n

/-- The percentages of as many columns as visits of a chain run at once fit, for every chain. -/
def ChainsFit (rules : ZoneRules) (events : List CalendarEvent) (dayStart : Int) : Prop :=
  ∀ e ∈ eventsInDay rules events dayStart, ∀ n, IsGreatest (runningCounts (eventsInDay rules events dayStart) e) n →
    ColumnsFit n

/-- They do where no more than five visits meet the day. -/
theorem chainsFit_of_few (h : (eventsInDay rules events dayStart).length ≤ 5) : ChainsFit rules events dayStart := by
  intro e he n hn
  obtain ⟨t, rfl⟩ := hn.1
  refine columnsFit_small (le_trans ?_ h)
  classical
  calc {f | f ∈ eventsInDay rules events dayStart ∧ SameChain (eventsInDay rules events dayStart) e f ∧ f.start ≤ t ∧
        t < f.end_}.ncard
      ≤ ((eventsInDay rules events dayStart).toFinset : Set CalendarEvent).ncard :=
        Set.ncard_le_ncard (fun f hf => by simpa using hf.1) (Finset.finite_toSet _)
    _ = (eventsInDay rules events dayStart).toFinset.card := Set.ncard_coe_finset _
    _ ≤ (eventsInDay rules events dayStart).length := List.toFinset_card_le _

/-- The visits that meet the day are shown, each once and without another in its place, with as many columns as their
chain needs, exactly when the chains before 1970 need as many as each other and the percentages of so many fit. -/
theorem day_shown (hids : (events.map CalendarEvent.id).Nodup) (hpos : ∀ e ∈ events, e.start < e.end_) :
    ShowsDay rules events opts.dayStart (layoutDay rules events opts) ↔
      EarlyAlike rules events opts.dayStart ∧ ChainsFit rules events opts.dayStart := by
  have hnodup : ((dayOrder rules events opts.dayStart).map CalendarEvent.id).Nodup := dayOrder_ids hids
  have hcolumns : (∀ g ∈ groupsOf CalendarEvent.start CalendarEvent.end_ 0 (dayOrder rules events opts.dayStart) [] 0,
      ∀ e ∈ g, _) ↔ _ :=
    columns_iff (sorted_day (eventsInDay rules events opts.dayStart)) (dayOrder_pos hpos) (hnodup.of_map _)
  have halike : EarlyAlike rules events opts.dayStart ↔ ∀ e ∈ dayOrder rules events opts.dayStart,
      ∀ f ∈ dayOrder rules events opts.dayStart, e.start < 0 → f.start < 0 → ∀ n,
        IsGreatest (counts CalendarEvent.start CalendarEvent.end_ (dayOrder rules events opts.dayStart) e) n →
          IsGreatest (counts CalendarEvent.start CalendarEvent.end_ (dayOrder rules events opts.dayStart) f) n := by
    unfold EarlyAlike
    simp only [runningCounts_eq, dayOrder_perm.mem_iff]
  rw [halike, ← hcolumns]
  constructor
  · intro h
    have hcount : ∀ g ∈ dayGroups rules events opts.dayStart, ∀ e ∈ g,
        IsGreatest (counts CalendarEvent.start CalendarEvent.end_ (dayOrder rules events opts.dayStart) e)
          (firstFit CalendarEvent.start CalendarEvent.end_ [] g).2.length := by
      intro g hg e he
      rw [← @flush_events rules opts g] at he
      obtain ⟨p, hp, rfl⟩ := List.mem_map.1 he
      have hgreatest := h.columns p (by rw [layoutDay_eq]; exact List.mem_flatMap.2 ⟨g, hg, hp⟩)
      obtain ⟨hlength, -⟩ := mem_flush ((dayOrder_ids hids).sublist ((group_sublist hg).map _)) hp
      rwa [runningCounts_eq, hlength] at hgreatest
    refine ⟨hcount, fun e he n hn => ?_⟩
    rw [runningCounts_eq] at hn
    obtain ⟨g, hg, heg⟩ : ∃ g ∈ dayGroups rules events opts.dayStart, e ∈ g := exists_group (dayOrder_perm.mem_iff.2 he)
    rw [hn.unique (hcount g hg e heg)]
    exact columnsFit_of_apart hids hpos hg heg (fun p hp => (h.within p hp).2.2)
      fun p hp q hq hne hover => (h.apart p hp q hq hne hover).2
  · rintro ⟨h, hfit⟩
    have hgreatest : ∀ p ∈ layoutDay rules events opts,
        IsGreatest (runningCounts (eventsInDay rules events opts.dayStart) p.event) p.colCount := by
      intro p hp
      obtain ⟨g, hg, hpg, hcount, -⟩ := mem_layoutDay hids hpos hp
      rw [runningCounts_eq, hcount]
      exact h g hg _ hpg
    have hfits : ∀ p ∈ layoutDay rules events opts, ColumnsFit p.colCount := by
      intro p hp
      refine hfit p.event (dayOrder_perm.mem_iff.1 ?_) _ (hgreatest p hp)
      rw [← layoutDay_events]
      exact List.mem_map_of_mem hp
    refine ⟨?_, fun p hp => layoutDay_within hids hpos hp (hfits p hp),
      fun p hp q hq => layoutDay_apart hids hpos hp hq (hfits p hp), hgreatest⟩
    rw [layoutDay_events]
    exact dayOrder_perm

end

/-! ## Two days in Regina -/

def boardEvent (id : String) (start end_ : Int) : CalendarEvent :=
  ⟨id, start, end_, "confirmed", "sam", "cut", 1, 1, 0, 0, none⟩

/-- Visits at 9:00 and 9:30 that overlap, and one at 13:00, on a day that begins at an instant. -/
def boardDay (dayStart : Int) : List CalendarEvent :=
  [boardEvent "c" (dayStart + 46800000) (dayStart + 50400000), boardEvent "a" (dayStart + 32400000) (dayStart + 36000000),
    boardEvent "b" (dayStart + 34200000) (dayStart + 37800000)]

def boardOptions (dayStart : Int) : LayoutOptions where
  dayStart := dayStart
  pxPerMin := 1

/-- May 4, 2026. -/
theorem may_shown : ShowsDay reginaRules (boardDay 1777874400000) 1777874400000
    (layoutDay reginaRules (boardDay 1777874400000) (boardOptions 1777874400000)) := by
  refine (@day_shown reginaRules (boardOptions 1777874400000) (boardDay 1777874400000) (by decide) (by decide)).2
    ⟨fun e he f hf hlow => ?_, chainsFit_of_few ((List.length_filter_le _ _).trans (by decide))⟩
  have hlater : ∀ e ∈ boardDay 1777874400000, 0 ≤ e.start := by decide
  exact absurd hlow (not_lt.2 (hlater e (List.mem_of_mem_filter he)))

/-- On December 30, 1969, the visit at 13:00 has a column of two, though no other runs with it. -/
theorem december_crowded : ¬ShowsDay reginaRules (boardDay (-151200000)) (-151200000)
    (layoutDay reginaRules (boardDay (-151200000)) (boardOptions (-151200000))) := by
  intro h
  obtain ⟨p, hp, hevent, hcount⟩ : ∃ p ∈ layoutDay reginaRules (boardDay (-151200000)) (boardOptions (-151200000)),
      p.event = boardEvent "c" (-104400000) (-100800000) ∧ p.colCount = 2 := by decide +kernel
  obtain ⟨⟨t, ht⟩, -⟩ := h.columns p hp
  dsimp only at ht
  rw [hevent, hcount] at ht
  -- its chain is itself
  have hchain : ∀ f, SameChain (eventsInDay reginaRules (boardDay (-151200000)) (-151200000))
      (boardEvent "c" (-104400000) (-100800000)) f → f = boardEvent "c" (-104400000) (-100800000) := by
    intro f hf
    induction hf with
    | refl => rfl
    | @tail g f _ hstep ih =>
      subst ih
      obtain ⟨-, hmem, hover⟩ := hstep
      have halone : ∀ f ∈ boardDay (-151200000), f.start < -100800000 → -104400000 < f.end_ →
          f = boardEvent "c" (-104400000) (-100800000) := by decide
      exact halone f (List.mem_of_mem_filter hmem) hover.2 hover.1
  have hle : 2 ≤ 1 := by
    rw [← ht, ← Set.ncard_singleton (boardEvent "c" (-104400000) (-100800000))]
    exact Set.ncard_le_ncard (fun f hf => hchain f hf.2.1) (Set.finite_singleton _)
  omega

end ClientBridge
