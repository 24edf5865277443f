import ClientBridge.Tax.RoundTrips
import ClientBridge.Billing.Pricing

/-!
# A tax fixed at issue, split by code

`split_fixed` gives back, code by code, the cents stored on each line: the amounts worked out
from the rates when they add up to them, else the stored cents in proportion to the rates with
the rounding on the last code (`Tax.fixedLine`).  Whatever branch a line takes, its parts add up
to its fixed tax and have its sign, and a tax that was computed at the same rates splits as it
was computed.
-/

namespace ClientBridge

namespace Tax

theorem cents_nonpos {v : ℚ} (hv : v ≤ 0) : cents v ≤ 0 := by
  have h := cents_nonneg (neg_nonneg.2 hv)
  rw [cents_neg] at h
  omega

/-! ## Shares of a fixed tax -/

section
variable {a b : ℚ} (ha : 0 < a) (hb : 0 < b)
include ha hb

/-- A part of a fixed tax is between nothing and the tax. -/
theorem cents_part_le {n : Int} (hn : 0 ≤ n) :
    0 ≤ cents (n * a / (a + b)) ∧ cents (n * a / (a + b)) ≤ n := by
  have hq : (0 : ℚ) ≤ n := by exact_mod_cast hn
  have hle : (n : ℚ) * a / (a + b) ≤ n := by
    rw [div_le_iff₀ (by positivity)]
    nlinarith
  have h0 : 0 ≤ (n : ℚ) * a / (a + b) := by positivity
  refine ⟨cents_nonneg h0, ?_⟩
  have := cents_mono h0 hle
  rwa [cents_intCast] at this

/-- Two inclusive taxes put together and shared by rate are the two again. -/
theorem cents_shared (t : Int) :
    cents (((cents (t * a / (1 + (a + b))) + cents (t * b / (1 + (a + b))) : Int) : ℚ) * a / (a + b)) =
      cents (t * a / (1 + (a + b))) := by
  have hw : 0 < a + b := by positivity
  have hd : 0 < 1 + (a + b) := by positivity
  -- amounts below zero are those above with every sign turned
  wlog ht : 0 ≤ t generalizing t
  · have h := this (-t) (by omega)
    rw [Int.cast_neg] at h
    simp only [neg_mul, neg_div, cents_neg, ← Int.neg_add, Int.cast_neg] at h
    omega
  have hq : (0 : ℚ) ≤ t := by exact_mod_cast ht
  have hu : 0 ≤ (t : ℚ) * a / (1 + (a + b)) := by positivity
  have hv : 0 ≤ (t : ℚ) * b / (1 + (a + b)) := by positivity
  have hlt : a / (a + b) < 1 := by
    rw [div_lt_one hw]
    linarith
  have hx := cents_nonneg hu
  have hy := cents_nonneg hv
  have h0 : 0 ≤ ((cents (t * a / (1 + (a + b))) + cents (t * b / (1 + (a + b))) : Int) : ℚ) * a / (a + b) := by
    have : (0 : ℚ) ≤ ((cents (t * a / (1 + (a + b))) + cents (t * b / (1 + (a + b))) : Int) : ℚ) := by
      exact_mod_cast by omega
    positivity
  have hmix : ((cents (t * a / (1 + (a + b))) + cents (t * b / (1 + (a + b))) : Int) : ℚ) * a / (a + b) =
      t * a / (1 + (a + b)) + a / (a + b) * (cents (t * a / (1 + (a + b))) - t * a / (1 + (a + b)) +
        (cents (t * b / (1 + (a + b))) - t * b / (1 + (a + b)))) := by
    push_cast
    field_simp
    ring
  rw [hmix] at h0 ⊢
  exact cents_mixed hu hv (by positivity) hlt h0

/-- Taxes added and taxes contained have the same cents under both codes when their sums agree. -/
theorem cents_agree {t : Int} (h : cents (t * a) + cents (t * b) =
      cents (t * a / (1 + (a + b))) + cents (t * b / (1 + (a + b)))) :
    cents (t * a) = cents (t * a / (1 + (a + b))) ∧ cents (t * b) = cents (t * b / (1 + (a + b))) := by
  have hd : 0 < 1 + (a + b) := by positivity
  wlog ht : 0 ≤ t generalizing t
  · have hneg := this (t := -t) (by
      rw [Int.cast_neg]
      simp only [neg_mul, neg_div, cents_neg]
      omega) (by omega)
    rw [Int.cast_neg] at hneg
    simp only [neg_mul, neg_div, cents_neg] at hneg
    omega
  have hq : (0 : ℚ) ≤ t := by exact_mod_cast ht
  have hle : ∀ {r : ℚ}, 0 < r → cents (t * r / (1 + (a + b))) ≤ cents (t * r) := fun hr =>
    cents_mono (by positivity) (div_le_self (by positivity) (by linarith))
  have h1 := hle ha
  have h2 := hle hb
  omega

end

/-! ## One line -/

theorem applied_idem (taxClass : TaxClass) (rates : List TaxComponent) :
    applied taxClass (applied taxClass rates) = applied taxClass rates := by
  cases taxClass with
  | standard => rfl
  | federalOnly => exact List.filter_filter.trans (by simp [applied])
  | exempt => rfl

theorem line_applied (l : TaxLine) (rates : List TaxComponent) (inclusive : Bool) :
    line l (applied l.taxClass rates) inclusive = line l rates inclusive := by
  simp only [line, applied_idem]

/-- A line's taxes add up to its tax, and have the sign of its amount. -/
theorem line_total (l : TaxLine) (rates : List TaxComponent) (inclusive : Bool) :
    Dict.total (line l rates inclusive).byJurisdiction = (line l rates inclusive).taxCents := by
  unfold line
  dsimp only
  split <;> rfl

theorem whole_nonneg (rates : List TaxComponent) : 0 ≤ whole rates := by
  refine List.sum_nonneg fun x hx => ?_
  obtain ⟨r, -, rfl⟩ := List.mem_map.1 hx
  exact r.rate_nonneg

theorem line_oneSign (l : TaxLine) (rates : List TaxComponent) (inclusive : Bool) :
    Dict.OneSign (line l rates inclusive).byJurisdiction := by
  unfold line
  dsimp only
  split
  · exact .inl fun x hx => absurd hx List.not_mem_nil
  · have hd : (0 : ℚ) < if inclusive = true then 1 + whole (applied l.taxClass rates) else 1 := by
      have := whole_nonneg (applied l.taxClass rates)
      split <;> linarith
    obtain ha | ha := le_total 0 l.amountCents
    · refine .inl fun x hx => ?_
      obtain ⟨r, -, rfl⟩ := List.mem_map.1 (Dict.mem_ofList hx)
      have hq : (0 : ℚ) ≤ l.amountCents := by exact_mod_cast ha
      exact cents_nonneg (div_nonneg (mul_nonneg hq r.rate_nonneg) hd.le)
    · refine .inr fun x hx => ?_
      obtain ⟨r, -, rfl⟩ := List.mem_map.1 (Dict.mem_ofList hx)
      have hq : (l.amountCents : ℚ) ≤ 0 := by exact_mod_cast ha
      exact cents_nonpos (div_nonpos_of_nonpos_of_nonneg (mul_nonpos_of_nonpos_of_nonneg hq r.rate_nonneg) hd.le)

/-- The stored cents in proportion to the rates, the rounding on the last code. -/
def spread (fixed : Int) (rates : List TaxComponent) (last : TaxComponent) : List (TaxCode × Int) :=
  let parts := Dict.ofList (rates.map fun r => (r.jurisdiction, cents (fixed * r.rate / whole rates)))
  Dict.bump parts last.jurisdiction (fixed - Dict.total parts)

/-- Nothing to split, the taxes worked out, or the stored cents in proportion. -/
theorem fixedLine_cases (l : TaxLine) (fixed : Int) (rates : List TaxComponent) :
    ((fixed = 0 ∨ applied l.taxClass rates = []) ∧ fixedLine l fixed rates = ⟨l.amountCents, fixed, []⟩) ∨
    ((line l rates false).taxCents = fixed ∧ fixedLine l fixed rates = line l rates false) ∨
    ∃ last, (applied l.taxClass rates).getLast? = some last ∧ fixed ≠ 0 ∧ (line l rates false).taxCents ≠ fixed ∧
      fixedLine l fixed rates = ⟨l.amountCents, fixed, spread fixed (applied l.taxClass rates) last⟩ := by
  cases hlast : (applied l.taxClass rates).getLast? with
  | none => exact .inl ⟨.inr (List.getLast?_eq_none_iff.1 hlast), by simp [fixedLine, hlast]⟩
  | some last =>
    by_cases h0 : fixed = 0
    · exact .inl ⟨.inl h0, by simp [fixedLine, hlast, h0]⟩
    · by_cases hw : (line l rates false).taxCents = fixed
      · exact .inr (.inl ⟨hw, by simp [fixedLine, hlast, h0, line_applied, hw]⟩)
      · exact .inr (.inr ⟨last, rfl, h0, hw, by simp [fixedLine, hlast, h0, line_applied, hw, spread]⟩)

/-- One code takes the whole of a fixed tax; of two the first takes its part, the last the rest. -/
theorem spread_eq {rates : List TaxComponent} (hlen : rates.length ≤ 2) (hpos : ∀ r ∈ rates, 0 < r.rate)
    {last : TaxComponent} (hlast : rates.getLast? = some last) (fixed : Int) :
    (∀ r ∈ rates, r.jurisdiction = last.jurisdiction) ∧ spread fixed rates last = [(last.jurisdiction, fixed)] ∨
    ∃ r, rates = [r, last] ∧ r.jurisdiction ≠ last.jurisdiction ∧
      spread fixed rates last =
        [(r.jurisdiction, cents (fixed * r.rate / (r.rate + last.rate))),
          (last.jurisdiction, fixed - cents (fixed * r.rate / (r.rate + last.rate)))] := by
  rcases rates with - | ⟨r, - | ⟨r', - | ⟨r'', rates⟩⟩⟩
  · cases hlast
  · obtain rfl : r = last := by simpa using hlast
    exact .inl ⟨by simp, by simp [spread, Dict.ofList, Dict.put, Dict.bump, Dict.total]⟩
  · obtain rfl : r' = last := by simpa using hlast
    by_cases hj : r.jurisdiction = r'.jurisdiction
    · exact .inl ⟨by simp [hj], by simp [spread, Dict.ofList, Dict.put, Dict.bump, Dict.total, hj]⟩
    · refine .inr ⟨r, rfl, hj, ?_⟩
      simp [spread, Dict.ofList, Dict.put, Dict.bump, Dict.total, hj, whole]
      omega
  · simp at hlen

section
variable {rates : List TaxComponent} (hlen : rates.length ≤ 2) (hpos : ∀ r ∈ rates, 0 < r.rate)
include hlen hpos

theorem applied_small (taxClass : TaxClass) :
    (applied taxClass rates).length ≤ 2 ∧ ∀ r ∈ applied taxClass rates, 0 < r.rate :=
  ⟨(applied_sublist taxClass rates).length_le.trans hlen, fun r hr => hpos r ((applied_sublist taxClass rates).subset hr)⟩

/-- Whatever the branch, a line's parts add up to its fixed tax. -/
theorem fixedLine_total {l : TaxLine} {fixed : Int} (h : applied l.taxClass rates ≠ [] ∨ fixed = 0) :
    Dict.total (fixedLine l fixed rates).byJurisdiction = fixed := by
  obtain ⟨hl, hp⟩ := applied_small hlen hpos l.taxClass
  obtain ⟨hnone, he⟩ | ⟨hw, he⟩ | ⟨last, hlast, -, -, he⟩ := fixedLine_cases l fixed rates
  · rw [he]
    obtain h0 | hnil := hnone
    · exact h0.symm
    · exact (h.resolve_left fun h => h hnil).symm
  · rw [he, line_total, hw]
  · rw [he]
    obtain ⟨-, hs⟩ | ⟨r, -, -, hs⟩ := spread_eq hl hp hlast fixed
    · simp [hs]
    · simp [hs]

/-- No part has a sign its line's fixed tax has not. -/
theorem fixedLine_oneSign (l : TaxLine) (fixed : Int) : Dict.OneSign (fixedLine l fixed rates).byJurisdiction := by
  obtain ⟨hl, hp⟩ := applied_small hlen hpos l.taxClass
  obtain ⟨-, he⟩ | ⟨-, he⟩ | ⟨last, hlast, -, -, he⟩ := fixedLine_cases l fixed rates
  · rw [he]
    exact .inl fun x hx => absurd hx List.not_mem_nil
  · rw [he]
    exact line_oneSign l rates false
  · rw [he]
    obtain ⟨-, hs⟩ | ⟨r, hrs, -, hs⟩ := spread_eq hl hp hlast fixed
    · simp only [hs]
      obtain h | h := le_total 0 fixed
      · exact .inl (by simpa using h)
      · exact .inr (by simpa using h)
    · have hr := hp r (by simp [hrs])
      have hr' := hp last (by simp [hrs])
      simp only [hs]
      obtain h | h := le_total 0 fixed
      · have := cents_part_le hr hr' h
        exact .inl (by simpa using this)
      · have hneg := cents_part_le hr hr' (n := -fixed) (by omega)
        rw [Int.cast_neg, neg_mul, neg_div, cents_neg] at hneg
        refine .inr ?_
        simp only [List.mem_cons, List.not_mem_nil, or_false, forall_eq_or_imp, forall_eq]
        omega

omit hpos in
/-- A line's taxes: none, all under one code, or two. -/
theorem line_codes (l : TaxLine) (inclusive : Bool) :
    (line l rates inclusive).byJurisdiction = [] ∧ (line l rates inclusive).taxCents = 0 ∨
    (∃ r ∈ applied l.taxClass rates, (∀ r' ∈ applied l.taxClass rates, r'.jurisdiction = r.jurisdiction) ∧
      (line l rates inclusive).byJurisdiction = [(r.jurisdiction, (line l rates inclusive).taxCents)]) ∨
    ∃ r r', applied l.taxClass rates = [r, r'] ∧ r.jurisdiction ≠ r'.jurisdiction ∧
      let divisor := if inclusive then 1 + (r.rate + r'.rate) else 1
      (line l rates inclusive).byJurisdiction =
        [(r.jurisdiction, cents (l.amountCents * r.rate / divisor)),
          (r'.jurisdiction, cents (l.amountCents * r'.rate / divisor))] := by
  have hl := (applied_sublist l.taxClass rates).length_le.trans hlen
  simp only [line]
  generalize applied l.taxClass rates = rs at hl
  by_cases ht : l.taxable = true
  · rcases rs with - | ⟨r, - | ⟨r', - | ⟨r'', rs⟩⟩⟩
    · simp
    · exact .inr (.inl ⟨r, by simp, by simp, by simp [ht, Dict.ofList, Dict.put]⟩)
    · by_cases hj : r.jurisdiction = r'.jurisdiction
      · exact .inr (.inl ⟨r', by simp, by simp [hj], by simp [ht, hj, Dict.ofList, Dict.put]⟩)
      · exact .inr (.inr ⟨r, r', rfl, hj, by simp [ht, hj, Dict.ofList, Dict.put, whole]⟩)
    · simp at hl
  · simp [ht]

/-- Taxes added and taxes contained that add up to the same are the same, code by code. -/
theorem line_agree {l : TaxLine} (h : (line l rates false).taxCents = (line l rates true).taxCents) (c : TaxCode) :
    Dict.get (line l rates false).byJurisdiction c = Dict.get (line l rates true).byJurisdiction c := by
  have hadded := line_total l rates false
  have hwithin := line_total l rates true
  obtain ⟨ha, ha0⟩ | ⟨r, hr, hone, ha⟩ | ⟨r, r', hrs, hne, ha⟩ := line_codes hlen l false
  · rw [ha, (line_oneSign l rates true).get_zero (by rw [hwithin, ← h, ha0])]
    rfl
  · obtain ⟨hw, hw0⟩ | ⟨q, hq, -, hw⟩ | ⟨q, q', hqs, hne, -⟩ := line_codes hlen l true
    · rw [hw, (line_oneSign l rates false).get_zero (by rw [hadded, h, hw0])]
      rfl
    · rw [ha, hw, hone q hq, h]
    · exact absurd ((hone q (by simp [hqs])).trans (hone q' (by simp [hqs])).symm) hne
  · obtain ⟨hw, hw0⟩ | ⟨q, -, hone, -⟩ | ⟨q, q', hqs, -, hw⟩ := line_codes hlen l true
    · rw [hw, (line_oneSign l rates false).get_zero (by rw [hadded, h, hw0])]
      rfl
    · exact absurd ((hone r (by simp [hrs])).trans (hone r' (by simp [hrs])).symm) hne
    · obtain ⟨rfl, rfl⟩ : q = r ∧ q' = r' := by simpa [hqs] using hrs
      have hp := (applied_small hlen hpos l.taxClass).2
      rw [ha, hw]
      rw [← hadded, ← hwithin, ha, hw] at h
      simp only [Bool.false_eq_true, if_false, if_true, div_one, Dict.total_cons, Dict.total_nil, Int.add_zero] at h ⊢
      obtain ⟨h1, h2⟩ := cents_agree (hp q (by simp [hrs])) (hp q' (by simp [hrs])) h
      rw [h1, h2]

/-- A tax computed at the rates splits as it was computed. -/
theorem fixedLine_as_computed (l : TaxLine) (inclusive : Bool) (c : TaxCode) :
    Dict.get (fixedLine l (line l rates inclusive).taxCents rates).byJurisdiction c =
      Dict.get (line l rates inclusive).byJurisdiction c := by
  obtain ⟨hl, hp⟩ := applied_small hlen hpos l.taxClass
  have htotal := line_total l rates inclusive
  obtain ⟨hnone, he⟩ | ⟨hw, he⟩ | ⟨last, hlast, h0, hw, he⟩ := fixedLine_cases l (line l rates inclusive).taxCents rates
  · rw [he]
    obtain hz | hnil := hnone
    · exact ((line_oneSign l rates inclusive).get_zero (htotal.trans hz) c).symm
    · simp [line, hnil]
  · rw [he]
    cases inclusive with
    | false => rfl
    | true => exact line_agree hlen hpos hw c
  · obtain rfl : inclusive = true := by
      cases inclusive with
      | false => exact absurd rfl hw
      | true => rfl
    rw [he]
    obtain ⟨-, hz⟩ | ⟨r, hr, hone, hb⟩ | ⟨r, r', hrs, hne, hb⟩ := line_codes hlen l true
    · exact absurd hz h0
    · obtain ⟨-, hs⟩ | ⟨q, hqs, hne, -⟩ := spread_eq hl hp hlast (line l rates true).taxCents
      · rw [hs, hb, hone last (List.mem_of_getLast? hlast)]
      · exact absurd ((hone q (by simp [hqs])).trans (hone last (by simp [hqs])).symm) hne
    · obtain ⟨hall, -⟩ | ⟨q, hqs, -, hs⟩ := spread_eq hl hp hlast (line l rates true).taxCents
      · exact absurd ((hall r (by simp [hrs])).trans (hall r' (by simp [hrs])).symm) hne
      · obtain ⟨rfl, rfl⟩ : q = r ∧ last = r' := by simpa [hqs] using hrs
        have hshare := cents_shared (hp q (by simp [hrs])) (hp last (by simp [hrs])) l.amountCents
        rw [hs, hb]
        rw [hb] at htotal
        simp only [if_true, Dict.total_cons, Dict.total_nil, Int.add_zero] at htotal ⊢
        rw [← htotal, hshare]
        congr 4
        omega

end

theorem line_unregistered (l : TaxLine) (inclusive : Bool) : line l [] inclusive = ⟨l.amountCents, 0, []⟩ := by
  have h : applied l.taxClass [] = [] := List.sublist_nil.1 (applied_sublist l.taxClass [])
  simp [line, h]

theorem nodup_line (l : TaxLine) (rates : List TaxComponent) (inclusive : Bool) :
    (Dict.keys (line l rates inclusive).byJurisdiction).Nodup := by
  unfold line
  dsimp only
  split
  · exact List.nodup_nil
  · exact Dict.nodup_ofList _

theorem nodup_fixedLine (l : TaxLine) (fixed : Int) (rates : List TaxComponent) :
    (Dict.keys (fixedLine l fixed rates).byJurisdiction).Nodup := by
  obtain ⟨-, he⟩ | ⟨-, he⟩ | ⟨last, -, -, -, he⟩ := fixedLine_cases l fixed rates
  · rw [he]
    exact List.nodup_nil
  · rw [he]
    exact nodup_line l rates false
  · rw [he]
    exact Dict.nodup_bump (Dict.nodup_ofList _) _ _

/-- Results with the same taxes line by line have the same taxes as documents. -/
theorem code_total_congr {xs ys : List LineTax} {c : TaxCode}
    (h : List.Forall₂ (fun x y => Dict.get x.byJurisdiction c = Dict.get y.byJurisdiction c) xs ys)
    (hx : ∀ x ∈ xs, (Dict.keys x.byJurisdiction).Nodup) (hy : ∀ y ∈ ys, (Dict.keys y.byJurisdiction).Nodup) :
    (total xs).code c = (total ys).code c := by
  rw [code_total, code_total]
  induction h with
  | nil => rfl
  | @cons x y xs ys hxy hrest ih =>
    rw [List.flatMap_cons, List.flatMap_cons, Dict.sumAt_append, Dict.sumAt_append,
      Dict.sumAt_eq_get (hx x List.mem_cons_self), Dict.sumAt_eq_get (hy y List.mem_cons_self), hxy,
      ih (fun z hz => hx z (List.mem_cons_of_mem x hz)) fun z hz => hy z (List.mem_cons_of_mem y hz)]

end Tax

/-- A document's fixed taxes are split without losing or making a cent, line by line and in
total, every part with the sign of its line's tax; taxes that were computed at the same rates
split as they were computed. -/
theorem split_fixed_conserves {lines : List (TaxLine × Int)} {rates : List TaxComponent} (hlen : rates.length ≤ 2)
    (hpos : ∀ r ∈ rates, 0 < r.rate) (hl : ∀ l ∈ lines, Tax.applied l.1.taxClass rates ≠ [] ∨ l.2 = 0) :
    let split := splitFixed lines rates
    List.Forall₂ (fun l t => Dict.total t.byJurisdiction = l.2 ∧
      ∀ x ∈ t.byJurisdiction, (0 ≤ l.2 → 0 ≤ x.2) ∧ (l.2 ≤ 0 → x.2 ≤ 0)) lines split.lines ∧
    Dict.total split.byJurisdiction = split.taxTotalCents ∧ split.taxTotalCents = (lines.map (·.2)).sum ∧
    ∀ registered inclusive, let computed := computeTax (lines.map (·.1)) rates registered inclusive
      computed.lines.map (·.taxCents) = lines.map (·.2) →
      List.Forall₂ (fun s t => ∀ c, Dict.get s.byJurisdiction c = Dict.get t.byJurisdiction c)
        split.lines computed.lines ∧ ∀ c, split.code c = computed.code c := by
  intro split
  have hparts : ∀ l ∈ lines, Dict.total (Tax.fixedLine l.1 l.2 rates).byJurisdiction = l.2 := fun l hm =>
    Tax.fixedLine_total hlen hpos (hl l hm)
  refine ⟨?_, ?_, taxTotal_splitFixed lines rates, ?_⟩
  · refine List.forall₂_map_right_iff.2 (List.forall₂_same.2 fun l hm => ⟨hparts l hm, fun x hx => ?_⟩)
    have h := (Tax.fixedLine_oneSign hlen hpos l.1 l.2).part hx
    rwa [hparts l hm] at h
  · have hsum : Dict.total split.byJurisdiction = (lines.map (·.2)).sum := by
      show Dict.total (Dict.collect _) = _
      rw [Dict.total_collect]
      clear hl split
      induction lines with
      | nil => rfl
      | cons l lines ih =>
        rw [List.map_cons, List.flatMap_cons, Dict.total_append, hparts l List.mem_cons_self,
          ih fun l' h => hparts l' (List.mem_cons_of_mem l h)]
        rfl
    rw [hsum, taxTotal_splitFixed]
  · intro registered inclusive computed hfixed
    have hline : ∀ l ∈ lines, ∀ c, Dict.get (Tax.fixedLine l.1 l.2 rates).byJurisdiction c =
        Dict.get (Tax.line l.1 (if registered then rates else []) inclusive).byJurisdiction c := by
      intro l hm c
      have htax : (Tax.line l.1 (if registered then rates else []) inclusive).taxCents = l.2 := by
        simp only [computed, computeTax, Tax.total, List.map_map] at hfixed
        exact List.map_inj_left.1 hfixed l hm
      cases registered with
      | true =>
        rw [← htax]
        exact Tax.fixedLine_as_computed hlen hpos l.1 inclusive c
      | false =>
        have h0 : l.2 = 0 := htax.symm.trans (congrArg LineTax.taxCents (Tax.line_unregistered l.1 inclusive))
        rw [(Tax.fixedLine_oneSign hlen hpos l.1 l.2).get_zero ((hparts l hm).trans h0)]
        exact (congrArg (fun t : LineTax => Dict.get t.byJurisdiction c) (Tax.line_unregistered l.1 inclusive)).symm
    have hlines : List.Forall₂ (fun s t => ∀ c, Dict.get s.byJurisdiction c = Dict.get t.byJurisdiction c)
        split.lines computed.lines := by
      have hmap : computed.lines =
          lines.map fun l => Tax.line l.1 (if registered then rates else []) inclusive := by
        simp [computed, computeTax, Tax.total, Function.comp_def]
      rw [hmap]
      exact List.forall₂_map_left_iff.2 (List.forall₂_map_right_iff.2 (List.forall₂_same.2 hline))
    refine ⟨hlines, fun c => Tax.code_total_congr (hlines.imp fun _ _ h => h c) ?_ ?_⟩
    · intro t ht
      obtain ⟨l, -, rfl⟩ := List.mem_map.1 ht
      exact Tax.nodup_fixedLine l.1 l.2 rates
    · intro t ht
      obtain ⟨l, -, rfl⟩ := List.mem_map.1 ht
      exact Tax.nodup_line l _ inclusive

/-- Two lines in Quebec: the first's tax is the one worked out, the second's was fixed at other rates. -/
theorem quebec_split_conserves :
    let lines : List (TaxLine × Int) := [({ amountCents := 4999 }, 749), ({ amountCents := 100 }, 13)]
    let rates : List TaxComponent := [⟨.GST, 1 / 20, by norm_num⟩, ⟨.QST, 9975 / 100000, by norm_num⟩]
    Dict.total (splitFixed lines rates).byJurisdiction = 762 ∧ (splitFixed lines rates).taxTotalCents = 762 := by
  intro lines rates
  have hpos : ∀ r ∈ rates, 0 < r.rate := by simp [rates]
  have h := @split_fixed_conserves lines rates (by simp [rates]) hpos (by simp [lines, rates, Tax.applied])
  have hsum : (splitFixed lines rates).taxTotalCents = 762 := h.2.2.1
  exact ⟨h.2.1.trans hsum, hsum⟩

end ClientBridge
