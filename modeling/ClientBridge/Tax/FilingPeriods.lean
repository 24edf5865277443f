import ClientBridge.Library.Calendar
import ClientBridge.Library.Sweeps
import ClientBridge.Tax.RemittanceRuns

/-!
# The periods a business files

`_ranges` lists the filing periods from the first tax booked to today, and `_filed` sweeps the returns of
a family over one of them, asking for the tax of the days they leave out.
-/

namespace ClientBridge

open Bookkeeping Calendar Sweeps

/-! ## Periods -/

inductive FilingFrequency where
  | monthly | quarterly | annual
  deriving DecidableEq, Repr

def FilingFrequency.periodMonths : FilingFrequency → Int
  | .monthly => 1
  | .quarterly => 3
  | .annual => 12

/-- The first of the month `months` after the day's month (`add_months`). -/
def monthsAfter (day : CivilDate) (months : Int) : CivilDate := CivilDate.first (day.month + months)

def monthEnd (day : CivilDate) : CivilDate := CivilDate.last day.month

/-- The filing period that contains a day. -/
def periodOf (day : CivilDate) (frequency : FilingFrequency) : CivilDate × CivilDate :=
  let months := frequency.periodMonths
  let first := CivilDate.first (12 * (day.month / 12) + day.month % 12 / months * months)
  (first, monthEnd (monthsAfter first (months - 1)))

def historyYears : Int := 2

/-- The loop of `_ranges`. -/
def rangesFrom (today : CivilDate) (frequency : FilingFrequency) : Nat → CivilDate → List (CivilDate × CivilDate)
  | 0, _ => []
  | fuel + 1, start =>
    if start ≤ today then
      let range := periodOf start frequency
      range :: rangesFrom today frequency fuel (monthsAfter range.2 1)
    else []

/-- The first day of the first period: the first tax booked, two years back at most. -/
def firstStart (first : Option CivilDate) (today : CivilDate) (frequency : FilingFrequency) : CivilDate :=
  let earliest := CivilDate.first (12 * (today.month / 12 - historyYears + 1))
  (periodOf (max (first.getD today) earliest) frequency).1

/-- `_ranges`: every filing period from the first tax booked, oldest first; each has a month of its own. -/
def filingRanges (first : Option CivilDate) (today : CivilDate) (frequency : FilingFrequency) :
    List (CivilDate × CivilDate) :=
  let start := firstStart first today frequency
  rangesFrom today frequency (today.month - start.month + 1).toNat start

/-! ## Returns -/

/-- What `_filed` reads of a return. -/
structure FiledReturn where
  family : Option TaxFamily
  periodStart : Int
  periodEnd : Int
  deriving DecidableEq, Repr

/-- `r.family in (None, family)` -/
def FiledReturn.covers (r : FiledReturn) (family : TaxFamily) : Bool :=
  decide (r.family = none) || decide (r.family = some family)

def FiledReturn.meets (r : FiledReturn) (start end_ : Int) : Bool :=
  decide (r.periodStart ≤ end_) && decide (start ≤ r.periodEnd)

/-- The order of tuples. -/
def spanBefore (s t : Span) : Prop := s.1 < t.1 ∨ (s.1 = t.1 ∧ s.2 ≤ t.2)

instance : DecidableRel spanBefore := fun _ _ => inferInstanceAs (Decidable (_ ∨ _))

/-- The sweep of `_filed`: no days left out have tax. -/
def sweepClear (owed : Int → Int → Int) : Int → List Span → Bool
  | _, [] => true
  | cursor, (first, last) :: spans =>
    if cursor < first ∧ 0 < owed cursor (first - 1) then false
    else sweepClear owed (max cursor (last + 1)) spans

/-- `_owed` over whole days, by the instants `period_bounds` gives them. -/
def taxOwedOn (midnight : Int → Int) (L : DatedLedger) (family : TaxFamily) (start end_ : Int) : Int :=
  Dict.total (taxOwed L (midnight start) (midnight (end_ + 1)) (some family))

/-- The returns' days in the period, in order. -/
def filedSpans (start end_ : Int) (family : TaxFamily) (filed : List FiledReturn) : List Span :=
  ((filed.filter fun r => r.covers family && r.meets start end_).map fun r =>
    (max r.periodStart start, min r.periodEnd end_)).insertionSort spanBefore

/-- `_filed`: a period is filed once its returns leave no day with this family's tax unfiled. -/
def isFiled (midnight : Int → Int) (L : DatedLedger) (start end_ : Int) (family : TaxFamily)
    (filed : List FiledReturn) : Bool :=
  let spans := filedSpans start end_ family filed
  if spans = [] then false
  else sweepClear (taxOwedOn midnight L family) start (spans ++ [(end_ + 1, end_)])

/-! ## The days left out -/

/-- A return of the family is for this day. -/
def DayFiled (filed : List FiledReturn) (family : TaxFamily) (d : Int) : Prop :=
  ∃ r ∈ filed, r.covers family = true ∧ r.periodStart ≤ d ∧ d ≤ r.periodEnd

/-- A longest run of days of the period that no return of the family is for. -/
structure UnfiledRun (filed : List FiledReturn) (family : TaxFamily) (start end_ a b : Int) : Prop where
  from_start : start ≤ a
  nonempty : a ≤ b
  to_end : b ≤ end_
  unfiled : ∀ d, a ≤ d → d ≤ b → ¬DayFiled filed family d
  left : a = start ∨ DayFiled filed family (a - 1)
  right : b = end_ ∨ DayFiled filed family (b + 1)

/-- A family's tax, net, of the entries dated on a day. -/
def dayTax (midnight : Int → Int) (L : DatedLedger) (family : TaxFamily) (d : Int) : Int :=
  (family.codes.map fun c => -periodTax L (midnight d) (midnight (d + 1)) c).sum

theorem sweepClear_iff (owed : Int → Int → Int) (cursor : Int) (spans : List Span) :
    sweepClear owed cursor spans = true ↔ ∀ run ∈ runsBetween cursor spans, owed run.1 run.2 ≤ 0 := by
  induction spans generalizing cursor with
  | nil => simp [sweepClear, runsBetween]
  | cons s spans ih =>
    rw [sweepClear, runsBetween]
    by_cases hlt : cursor < s.1
    · rw [if_pos hlt, List.singleton_append, List.forall_mem_cons]
      by_cases howed : 0 < owed cursor (s.1 - 1)
      · rw [if_pos ⟨hlt, howed⟩]
        simp [howed]
      · rw [if_neg fun h => howed h.2, ih, and_iff_right (not_lt.1 howed)]
    · rw [if_neg fun h => hlt h.1, if_neg hlt, List.nil_append, ih]

section
variable {filed : List FiledReturn} {family : TaxFamily} {start end_ : Int}

theorem mem_filedSpans {s : Span} : s ∈ filedSpans start end_ family filed ↔
    ∃ r ∈ filed, r.covers family = true ∧ r.meets start end_ = true ∧ (max r.periodStart start, min r.periodEnd end_) = s := by
  simp [filedSpans, List.mem_insertionSort, and_assoc]

theorem filedSpans_sorted : (filedSpans start end_ family filed).Pairwise fun s t => s.1 ≤ t.1 := by
  have htotal : Std.Total spanBefore := ⟨fun s t => by unfold spanBefore; omega⟩
  have htrans : IsTrans Span spanBefore := ⟨fun s t u => by unfold spanBefore; omega⟩
  refine (List.pairwise_insertionSort spanBefore _).imp fun {s t} h => ?_
  unfold spanBefore at h
  omega

theorem filedSpans_within (hle : start ≤ end_) (hfiled : ∀ r ∈ filed, r.periodStart ≤ r.periodEnd) :
    ∀ s ∈ filedSpans start end_ family filed, s.1 ≤ s.2 ∧ s.2 ≤ end_ := by
  intro s hs
  obtain ⟨r, hr, -, hmeets, rfl⟩ := mem_filedSpans.1 hs
  have := hfiled r hr
  rw [FiledReturn.meets, Bool.and_eq_true, decide_eq_true_eq, decide_eq_true_eq] at hmeets
  dsimp only
  omega

/-- Of the days of a period, those in the spans are those a return is for. -/
theorem covered_filedSpans {d : Int} (hstart : start ≤ d) (hend : d ≤ end_) :
    Sweeps.Covered (filedSpans start end_ family filed) d ↔ DayFiled filed family d := by
  constructor
  · rintro ⟨s, hs, hfirst, hlast⟩
    obtain ⟨r, hr, hcovers, -, rfl⟩ := mem_filedSpans.1 hs
    exact ⟨r, hr, hcovers, (le_max_left _ _).trans hfirst, hlast.trans (min_le_left _ _)⟩
  · rintro ⟨r, hr, hcovers, hfirst, hlast⟩
    have hmeets : r.meets start end_ = true := by
      rw [FiledReturn.meets, Bool.and_eq_true, decide_eq_true_eq, decide_eq_true_eq]
      omega
    exact ⟨_, mem_filedSpans.2 ⟨r, hr, hcovers, hmeets, rfl⟩, max_le hfirst hstart, le_min hlast hend⟩

theorem freeRun_filedSpans {a b : Int} :
    FreeRun (filedSpans start end_ family filed) start end_ a b ↔ UnfiledRun filed family start end_ a b := by
  constructor
  · intro h
    have hfrom := h.from_lo
    have hab := h.nonempty
    have hto := h.to_hi
    refine ⟨hfrom, hab, hto, fun d had hdb => ?_, ?_, ?_⟩
    · exact mt (covered_filedSpans (by omega) (by omega)).2 (h.free d had hdb)
    · by_cases ha : a = start
      · exact .inl ha
      · exact .inr ((covered_filedSpans (by omega) (by omega)).1 (h.left.resolve_left ha))
    · by_cases hb : b = end_
      · exact .inl hb
      · exact .inr ((covered_filedSpans (by omega) (by omega)).1 (h.right.resolve_left hb))
  · intro h
    have hfrom := h.from_start
    have hab := h.nonempty
    have hto := h.to_end
    refine ⟨hfrom, hab, hto, fun d had hdb => ?_, ?_, ?_⟩
    · exact mt (covered_filedSpans (by omega) (by omega)).1 (h.unfiled d had hdb)
    · by_cases ha : a = start
      · exact .inl ha
      · exact .inr ((covered_filedSpans (by omega) (by omega)).2 (h.left.resolve_left ha))
    · by_cases hb : b = end_
      · exact .inl hb
      · exact .inr ((covered_filedSpans (by omega) (by omega)).2 (h.right.resolve_left hb))

/-- A period is filed when a return meets it and the runs of days left out owe nothing. -/
theorem isFiled_iff {midnight : Int → Int} {L : DatedLedger} (hle : start ≤ end_)
    (hfiled : ∀ r ∈ filed, r.periodStart ≤ r.periodEnd) :
    isFiled midnight L start end_ family filed = true ↔
      (∃ r ∈ filed, r.covers family = true ∧ r.meets start end_ = true) ∧
        ∀ a b, UnfiledRun filed family start end_ a b → taxOwedOn midnight L family a b ≤ 0 := by
  have hsome : filedSpans start end_ family filed ≠ [] ↔
      ∃ r ∈ filed, r.covers family = true ∧ r.meets start end_ = true := by
    constructor
    · intro hne
      obtain ⟨s, hs⟩ := List.exists_mem_of_ne_nil _ hne
      obtain ⟨r, hr, hcovers, hmeets, -⟩ := mem_filedSpans.1 hs
      exact ⟨r, hr, hcovers, hmeets⟩
    · rintro ⟨r, hr, hcovers, hmeets⟩
      exact List.ne_nil_of_mem (mem_filedSpans.2 ⟨r, hr, hcovers, hmeets, rfl⟩)
  unfold isFiled
  dsimp only
  split
  · next hnil =>
    constructor
    · intro h
      cases h
    · intro h
      exact absurd hnil (hsome.2 h.1)
  · next hne =>
    rw [and_iff_right (hsome.1 hne), sweepClear_iff, Prod.forall]
    refine forall_congr' fun a => forall_congr' fun b => ?_
    rw [mem_runsBetween (filedSpans_within hle hfiled) filedSpans_sorted, freeRun_filedSpans]

end

/-! ## The tax of a run of days -/

theorem taxOwedOn_eq (midnight : Int → Int) (L : DatedLedger) (family : TaxFamily) (a b : Int) :
    taxOwedOn midnight L family a b = (family.codes.map fun c => -periodTax L (midnight a) (midnight (b + 1)) c).sum := by
  have hcodes : coveredCodes (some family) = family.codes := by
    cases family <;> rfl
  have hzeros : ∀ xs : List (TaxCode × Int), Dict.total (xs.filter fun x => decide (x.2 ≠ 0)) = Dict.total xs := by
    intro xs
    induction xs with
    | nil => rfl
    | cons x xs ih =>
      by_cases hx : x.2 = 0
      · rw [List.filter_cons_of_neg (by simp [hx]), ih, Dict.total_cons, hx, zero_add]
      · rw [List.filter_cons_of_pos (by simp [hx]), Dict.total_cons, Dict.total_cons, ih]
  rw [taxOwedOn, taxOwed, hzeros, hcodes, Dict.total, List.map_map]
  rfl

theorem periodTax_add (L : DatedLedger) {lo mid hi : Int} (hlo : lo ≤ mid) (hhi : mid ≤ hi) (c : TaxCode) :
    periodTax L lo hi c = periodTax L lo mid c + periodTax L mid hi c := by
  unfold periodTax
  rw [← Book.sum_or_of_disjoint]
  · refine Book.sum_congr fun j _ e _ => ?_
    have hsplit : dated lo hi j = (dated lo mid j || dated mid hi j) := by
      rw [Bool.eq_iff_iff]
      simp only [dated, Bool.or_eq_true, Bool.and_eq_true, decide_eq_true_eq]
      constructor
      · rintro ⟨⟨hevent, hfrom⟩, hto⟩
        rcases lt_or_ge j.info.occurredAt mid with h | h
        · exact .inl ⟨⟨hevent, hfrom⟩, h⟩
        · exact .inr ⟨⟨hevent, h⟩, hto⟩
      · rintro (⟨⟨hevent, hfrom⟩, hto⟩ | ⟨⟨hevent, hfrom⟩, hto⟩)
        · exact ⟨⟨hevent, hfrom⟩, by omega⟩
        · exact ⟨⟨hevent, by omega⟩, hto⟩
    rw [hsplit, Bool.and_or_distrib_right]
  · intro j _ e _ h
    simp only [dated, Bool.and_eq_true, decide_eq_true_eq] at h
    omega

/-- A run of days owes what its days do. -/
theorem taxOwedOn_eq_sum {midnight : Int → Int} (hmidnight : Monotone midnight) (L : DatedLedger) (family : TaxFamily)
    {a b : Int} (hab : a ≤ b) : taxOwedOn midnight L family a b = ∑ d ∈ Finset.Icc a b, dayTax midnight L family d := by
  induction b, hab using Int.leInduction with
  | base =>
    rw [Finset.Icc_self, Finset.sum_singleton, taxOwedOn_eq]
    rfl
  | succ b hab ih =>
    have hIcc : Finset.Icc a (b + 1) = insert (b + 1) (Finset.Icc a b) := by
      ext d
      simp only [Finset.mem_Icc, Finset.mem_insert]
      omega
    have hadd : ∀ c ∈ family.codes, -periodTax L (midnight a) (midnight (b + 1 + 1)) c =
        -periodTax L (midnight (b + 1)) (midnight (b + 1 + 1)) c + -periodTax L (midnight a) (midnight (b + 1)) c := by
      intro c _
      rw [periodTax_add L (hmidnight (show a ≤ b + 1 by omega)) (hmidnight (show b + 1 ≤ b + 1 + 1 by omega))]
      omega
    rw [hIcc, Finset.sum_insert (by simp), ← ih, taxOwedOn_eq, taxOwedOn_eq, dayTax, List.map_congr_left hadd, List.sum_map_add]

/-! ## The periods listed -/

theorem periodMonths_cases (frequency : FilingFrequency) :
    frequency.periodMonths = 1 ∨ frequency.periodMonths = 3 ∨ frequency.periodMonths = 12 := by
  cases frequency <;> decide

/-- A period starts with a month that is a whole number of periods from the start of a year. -/
theorem periodOf_eq (day : CivilDate) (frequency : FilingFrequency) :
    ∃ month, frequency.periodMonths ∣ month ∧ periodOf day frequency =
      (CivilDate.first month, CivilDate.last (month + frequency.periodMonths - 1)) := by
  refine ⟨12 * (day.month / 12) + day.month % 12 / frequency.periodMonths * frequency.periodMonths, ?_, ?_⟩
  · rcases periodMonths_cases frequency with h | h | h <;> rw [h] <;> omega
  · rw [periodOf]
    dsimp only [monthEnd, monthsAfter, CivilDate.first]
    rw [add_sub_assoc]

theorem periodOf_first {month : Int} {frequency : FilingFrequency} (h : frequency.periodMonths ∣ month) :
    periodOf (CivilDate.first month) frequency =
      (CivilDate.first month, CivilDate.last (month + frequency.periodMonths - 1)) := by
  have hmonth : 12 * (month / 12) + month % 12 / frequency.periodMonths * frequency.periodMonths = month := by
    rcases periodMonths_cases frequency with hk | hk | hk <;> rw [hk] at h ⊢ <;> omega
  rw [periodOf]
  dsimp only [monthEnd, monthsAfter, CivilDate.first]
  rw [hmonth, add_sub_assoc]

/-- A period starts the day after the one before ends. -/
def Follows (p q : CivilDate × CivilDate) : Prop := q.1.ordinal = p.2.ordinal + 1

section
variable {today : CivilDate} {frequency : FilingFrequency}

theorem ordinal_first_succ (month : Int) : (CivilDate.first (month + 1)).ordinal = (CivilDate.last month).ordinal + 1 := by
  rw [CivilDate.ordinal_first, CivilDate.ordinal_last, monthStart_succ]

/-- One period, and the ones after it. -/
theorem rangesFrom_succ {fuel : Nat} {month : Int} (h : frequency.periodMonths ∣ month)
    (hle : CivilDate.first month ≤ today) : rangesFrom today frequency (fuel + 1) (CivilDate.first month) =
      (CivilDate.first month, CivilDate.last (month + frequency.periodMonths - 1)) ::
        rangesFrom today frequency fuel (CivilDate.first (month + frequency.periodMonths)) := by
  rw [rangesFrom, if_pos hle]
  dsimp only
  rw [periodOf_first h]
  dsimp only [monthsAfter, CivilDate.last]
  rw [sub_add_cancel]

theorem rangesFrom_of_lt {fuel : Nat} {start : CivilDate} (hlt : today < start) : rangesFrom today frequency fuel start = [] := by
  cases fuel with
  | zero => rfl
  | succ fuel => exact if_neg (not_le.2 hlt)

/-- The periods lie one after another from the start on. -/
theorem rangesFrom_tile {fuel : Nat} {month : Int} (h : frequency.periodMonths ∣ month) :
    (rangesFrom today frequency fuel (CivilDate.first month)).IsChain Follows ∧
      (rangesFrom today frequency fuel (CivilDate.first month)).Pairwise (fun p q => p.2 < q.1) ∧
      ∀ p ∈ rangesFrom today frequency fuel (CivilDate.first month), CivilDate.first month ≤ p.1 := by
  induction fuel generalizing month with
  | zero => exact ⟨.nil, .nil, fun p hp => by cases hp⟩
  | succ fuel ih =>
    rcases lt_or_ge today (CivilDate.first month) with hlt | hle
    · rw [rangesFrom_of_lt hlt]
      exact ⟨.nil, .nil, fun p hp => by cases hp⟩
    · have hk : 1 ≤ frequency.periodMonths := by
        rcases periodMonths_cases frequency with hk | hk | hk <;> omega
      have hsucc := ordinal_first_succ (month + frequency.periodMonths - 1)
      rw [sub_add_cancel] at hsucc
      obtain ⟨hchain, hapart, hlater⟩ := ih (Int.dvd_add h (Int.dvd_refl _))
      rw [rangesFrom_succ h hle]
      refine ⟨?_, List.pairwise_cons.2 ⟨fun q hq => ?_, hapart⟩, ?_⟩
      · -- the next period, if today has reached it, is the first of the rest
        cases fuel with
        | zero => exact .singleton _
        | succ fuel =>
          rcases lt_or_ge today (CivilDate.first (month + frequency.periodMonths)) with hlt | hnext
          · rw [rangesFrom_of_lt hlt]
            exact .singleton _
          · rw [rangesFrom_succ (Int.dvd_add h (Int.dvd_refl _)) hnext] at hchain ⊢
            exact List.isChain_cons_cons.2 ⟨hsucc, hchain⟩
      · have hq := CivilDate.le_iff.1 (hlater q hq)
        rw [CivilDate.lt_iff]
        dsimp only
        omega
      · intro p hp
        rcases List.mem_cons.1 hp with rfl | hp
        · exact le_refl _
        · exact (CivilDate.lt_of_month_lt (show month < month + frequency.periodMonths by omega)).le.trans (hlater p hp)

/-- With a month for each period, they reach today. -/
theorem rangesFrom_reach {fuel : Nat} {month : Int} (h : frequency.periodMonths ∣ month)
    (hfuel : today.month - month + 1 ≤ fuel) {d : CivilDate} (hfrom : CivilDate.first month ≤ d) (hto : d ≤ today) :
    ∃ p ∈ rangesFrom today frequency fuel (CivilDate.first month), p.1 ≤ d ∧ d ≤ p.2 := by
  have hmonth : ∀ {m : Int}, CivilDate.first m ≤ d → m ≤ today.month := by
    intro m hm
    by_contra hlt
    exact absurd (hm.trans hto) (not_le.2 (CivilDate.lt_of_month_lt (show today.month < m by omega)))
  induction fuel generalizing month with
  | zero =>
    have := hmonth hfrom
    omega
  | succ fuel ih =>
    have hk : 1 ≤ frequency.periodMonths := by
      rcases periodMonths_cases frequency with hk | hk | hk <;> omega
    rw [rangesFrom_succ h (hfrom.trans hto)]
    rcases le_or_gt d (CivilDate.last (month + frequency.periodMonths - 1)) with hin | hpast
    · exact ⟨_, List.mem_cons_self, hfrom, hin⟩
    · have hnext : CivilDate.first (month + frequency.periodMonths) ≤ d := by
        have hsucc := ordinal_first_succ (month + frequency.periodMonths - 1)
        rw [sub_add_cancel] at hsucc
        rw [CivilDate.lt_iff] at hpast
        rw [CivilDate.le_iff]
        omega
      obtain ⟨p, hp, hd⟩ := ih (Int.dvd_add h (Int.dvd_refl _)) (by omega) hnext
      exact ⟨p, List.mem_cons_of_mem _ hp, hd⟩

end

/-- A period reads filed exactly when a return of the family meets it and every longest run of its days
that no return is for has no tax to file; a run's tax is that of its days.  The periods listed follow each
other, without a day in common, from the first start through today. -/
theorem filed_leaves_no_tax :
    (∀ (midnight : Int → Int) (L : DatedLedger) (day : CivilDate) (frequency : FilingFrequency) (family : TaxFamily)
      (filed : List FiledReturn), (∀ r ∈ filed, r.periodStart ≤ r.periodEnd) →
      let start := (periodOf day frequency).1.ordinal
      let end_ := (periodOf day frequency).2.ordinal
      (isFiled midnight L start end_ family filed = true ↔
        (∃ r ∈ filed, r.covers family = true ∧ r.periodStart ≤ end_ ∧ start ≤ r.periodEnd) ∧
          ∀ a b, UnfiledRun filed family start end_ a b → taxOwedOn midnight L family a b ≤ 0) ∧
      (Monotone midnight → ∀ a b, a ≤ b → taxOwedOn midnight L family a b = ∑ d ∈ Finset.Icc a b, dayTax midnight L family d)) ∧
    ∀ (first : Option CivilDate) (today : CivilDate) (frequency : FilingFrequency),
      let start := firstStart first today frequency
      let ranges := filingRanges first today frequency
      (start ≤ today → ranges.head? = some (periodOf start frequency) ∧ (periodOf start frequency).1 = start) ∧
        ranges.IsChain Follows ∧ ranges.Pairwise (fun p q => p.2 < q.1) ∧
        ∀ d, start ≤ d → d ≤ today → ∃ p ∈ ranges, p.1 ≤ d ∧ d ≤ p.2 := by
  constructor
  · intro midnight L day frequency family filed hfiled
    dsimp only
    refine ⟨?_, fun hmidnight a b hab => taxOwedOn_eq_sum hmidnight L family hab⟩
    have hle : (periodOf day frequency).1.ordinal ≤ (periodOf day frequency).2.ordinal := by
      obtain ⟨month, -, heq⟩ := periodOf_eq day frequency
      have hk : 1 ≤ frequency.periodMonths := by
        rcases periodMonths_cases frequency with hk | hk | hk <;> omega
      have hstep := monthStart_add_le month (frequency.periodMonths - 1).toNat
      have hlen := monthLength_bounds (month + frequency.periodMonths - 1)
      rw [show month + ((frequency.periodMonths - 1).toNat : Int) = month + frequency.periodMonths - 1 by omega] at hstep
      rw [heq, CivilDate.ordinal_first, CivilDate.ordinal_last]
      omega
    rw [isFiled_iff hle hfiled]
    simp only [FiledReturn.meets, Bool.and_eq_true, decide_eq_true_eq]
  · intro first today frequency
    dsimp only
    obtain ⟨month, hdvd, heq⟩ := periodOf_eq
      (max (first.getD today) (CivilDate.first (12 * (today.month / 12 - historyYears + 1)))) frequency
    have hstart : firstStart first today frequency = CivilDate.first month := by
      rw [firstStart, heq]
    obtain ⟨hchain, hapart, -⟩ := @rangesFrom_tile today frequency (today.month - month + 1).toNat month hdvd
    rw [filingRanges, hstart]
    dsimp only [CivilDate.first] at hchain hapart ⊢
    refine ⟨fun hle => ?_, hchain, hapart, fun d hfrom hto => ?_⟩
    · have hmonth : month ≤ today.month := by
        by_contra hlt
        exact absurd hle (not_le.2 (CivilDate.lt_of_month_lt (show today.month < month by omega)))
      have hfuel : (today.month - month + 1).toNat = (today.month - month).toNat + 1 := by omega
      have hlist := @rangesFrom_succ today frequency (today.month - month).toNat month hdvd hle
      have hperiod := @periodOf_first month frequency hdvd
      dsimp only [CivilDate.first] at hlist hperiod
      rw [hfuel, hlist, hperiod]
      exact ⟨rfl, rfl⟩
    · exact rangesFrom_reach hdvd (by omega) hfrom hto

/-! ## A winter -/

/-- GST of 5.00 on February 10, 2026, and 2.00 of it given back on April 2. -/
def winterLedger : DatedLedger :=
  [⟨0, .other 0, (taxJournal .sale (24 * 739657 + 15) .GST 500).1, (taxJournal .sale (24 * 739657 + 15) .GST 500).2⟩,
   ⟨1, .other 1, (taxJournal .refund (24 * 739708 + 9) .GST (-200)).1, (taxJournal .refund (24 * 739708 + 9) .GST (-200)).2⟩]

/-- February is filed for both families, and a week of it once more with the week after. -/
def winterReturns : List FiledReturn := [⟨some .federal, 739669, 739682⟩, ⟨none, 739648, 739675⟩]

/-- The first quarter of 2026 is filed, so its days left out, January and the end of March, have no tax; in
January none was booked.  The quarters since June 2025 are listed one after another. -/
theorem winter_filed :
    (∀ a b, UnfiledRun winterReturns .federal 739617 739706 a b → taxOwedOn (24 * ·) winterLedger .federal a b ≤ 0) ∧
      taxOwedOn (24 * ·) winterLedger .federal 739617 739647 =
        ∑ d ∈ Finset.Icc 739617 739647, dayTax (24 * ·) winterLedger .federal d ∧
      (filingRanges (some (CivilDate.ofOrdinal 739403)) (CivilDate.ofOrdinal 739657) .quarterly).IsChain Follows :=
  ⟨((filed_leaves_no_tax.1 (24 * ·) winterLedger (CivilDate.ofOrdinal 739657) .quarterly .federal winterReturns
      (by decide)).1.1 (by decide)).2,
    (filed_leaves_no_tax.1 (24 * ·) winterLedger (CivilDate.ofOrdinal 739657) .quarterly .federal winterReturns
      (by decide)).2 (fun a b h => by dsimp only; omega) 739617 739647 (by decide),
    (filed_leaves_no_tax.2 (some (CivilDate.ofOrdinal 739403)) (CivilDate.ofOrdinal 739657) .quarterly).2.1⟩

end ClientBridge
