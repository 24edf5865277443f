import ClientBridge.Tax.Rates

/-!
# Tax added to a price and backed out of the total

A membership's price at the processor holds its tax (`taxForAmount`), and every renewal backs
the tax out of what was charged (`taxWithin`).  Both round each code on its own, so the total
is off the exact one by up to a cent, and the divisor mixes the two errors: the mix of two
errors under half a cent stays under half a cent (`Tax.cents_mixed`), and what comes back is
what went in.
-/

namespace ClientBridge

namespace Tax

/-! ## Rounding to the cent -/

theorem cents_of_nonneg {v : ℚ} (hv : 0 ≤ v) : cents v = ⌊v + 1 / 2⌋ := by
  rw [cents, if_pos hv, abs_of_nonneg hv]

theorem cents_zero : cents 0 = 0 := by
  rw [cents_of_nonneg le_rfl, Int.floor_eq_iff]
  norm_num

theorem cents_neg (v : ℚ) : cents (-v) = -cents v := by
  obtain rfl | hv := eq_or_ne v 0
  · rw [neg_zero, cents_zero, Int.neg_zero]
  · obtain h | h := lt_or_gt_of_ne hv
    · rw [cents, cents, if_pos (by linarith), if_neg (by linarith), abs_neg, Int.neg_neg]
    · rw [cents, cents, if_neg (by linarith), if_pos h.le, abs_neg]

theorem cents_eq {v : ℚ} (hv : 0 ≤ v) {n : Int} (hl : n ≤ v + 1 / 2) (hu : v + 1 / 2 < n + 1) :
    cents v = n := by
  rw [cents_of_nonneg hv, Int.floor_eq_iff]
  exact ⟨hl, hu⟩

/-- Half a cent up at most, and less than half a cent down. -/
theorem cents_error {v : ℚ} (hv : 0 ≤ v) : -(1 / 2) < cents v - v ∧ cents v - v ≤ 1 / 2 := by
  rw [cents_of_nonneg hv]
  have hl := Int.floor_le (v + 1 / 2)
  have hu := Int.lt_floor_add_one (v + 1 / 2)
  constructor <;> linarith

theorem cents_nonneg {v : ℚ} (hv : 0 ≤ v) : 0 ≤ cents v := by
  rw [cents_of_nonneg hv, Int.floor_nonneg]
  linarith

theorem cents_mono {u v : ℚ} (hu : 0 ≤ u) (h : u ≤ v) : cents u ≤ cents v := by
  rw [cents_of_nonneg hu, cents_of_nonneg (hu.trans h)]
  exact Int.floor_le_floor (by linarith)

/-- Both errors of two rounded amounts, mixed into one of them, do not move its cents. -/
theorem cents_mixed {u v c : ℚ} (hu : 0 ≤ u) (hv : 0 ≤ v) (hc : 0 ≤ c) (hlt : c < 1)
    (h : 0 ≤ u + c * (cents u - u + (cents v - v))) :
    cents (u + c * (cents u - u + (cents v - v))) = cents u := by
  obtain ⟨hul, huu⟩ := cents_error hu
  obtain ⟨hvl, hvu⟩ := cents_error hv
  have hd : 0 < 1 - c := by linarith
  have hlow : -(1 / 2) * c ≤ c * (cents v - v) := by nlinarith
  have hhigh : c * (cents v - v) ≤ 1 / 2 * c := by nlinarith
  apply cents_eq h
  · have : (1 - c) * (cents u - u) ≤ (1 - c) * (1 / 2) := by nlinarith
    linarith
  · have : (1 - c) * -(1 / 2) < (1 - c) * (cents u - u) := mul_lt_mul_of_pos_left hul hd
    linarith

/-! ## One line, there and back -/

/-- What two rates added to a price comes off the total again, code by code. -/
theorem cents_backed_out {p : Int} (hp : 0 ≤ p) {a b : ℚ} (ha : 0 ≤ a) (hb : 0 ≤ b) :
    cents (((p + (cents (p * a) + cents (p * b)) : Int) : ℚ) * a / (1 + (a + b))) = cents (p * a) := by
  have hq : (0 : ℚ) ≤ p := by exact_mod_cast hp
  have hd : 0 < 1 + (a + b) := by linarith
  have hx := cents_nonneg (mul_nonneg hq ha)
  have hy := cents_nonneg (mul_nonneg hq hb)
  have hmix : ((p + (cents (p * a) + cents (p * b)) : Int) : ℚ) * a / (1 + (a + b)) =
      p * a + a / (1 + (a + b)) * (cents (p * a) - p * a + (cents (p * b) - p * b)) := by
    push_cast
    field_simp
    ring
  have hnonneg : 0 ≤ ((p + (cents (p * a) + cents (p * b)) : Int) : ℚ) * a / (1 + (a + b)) := by
    have : (0 : ℚ) ≤ ((p + (cents (p * a) + cents (p * b)) : Int) : ℚ) := by exact_mod_cast by omega
    positivity
  rw [hmix] at hnonneg ⊢
  have hlt : a / (1 + (a + b)) < 1 := by
    rw [div_lt_one hd]
    linarith
  exact cents_mixed (mul_nonneg hq ha) (mul_nonneg hq hb) (by positivity) hlt hnonneg

theorem applied_sublist (taxClass : TaxClass) (rates : List TaxComponent) :
    (applied taxClass rates).Sublist rates := by
  cases taxClass with
  | standard => exact List.Sublist.refl _
  | federalOnly => exact List.filter_sublist
  | exempt => exact List.nil_sublist _

theorem line_base (l : TaxLine) (rates : List TaxComponent) : (line l rates false).baseCents = l.amountCents := by
  unfold line
  dsimp only
  split <;> rfl

/-- A line's price with its tax, taken apart, is the line. -/
theorem line_backed_out {l : TaxLine} (hp : 0 ≤ l.amountCents) {rates : List TaxComponent}
    (hlen : rates.length ≤ 2) (hcodes : (rates.map (·.jurisdiction)).Nodup) :
    line { l with amountCents := (line l rates false).baseCents + (line l rates false).taxCents } rates true =
      line l rates false := by
  have hsub := applied_sublist l.taxClass rates
  have hle := hsub.length_le.trans hlen
  have hnd := hcodes.sublist (hsub.map _)
  simp only [line]
  generalize applied l.taxClass rates = rs at hle hnd
  by_cases ht : l.taxable = true
  · match rs, hle, hnd with
    | [], _, _ => simp
    | [r], _, _ =>
      have hr := cents_backed_out hp r.rate_nonneg le_rfl
      rw [mul_zero, cents_zero, Int.add_zero, add_zero, Int.cast_add] at hr
      simp [ht, whole, Dict.ofList, Dict.put, hr]
    | [r, r'], _, hnd =>
      have hne : r.jurisdiction ≠ r'.jurisdiction := by simpa using hnd
      have hr := cents_backed_out hp r.rate_nonneg r'.rate_nonneg
      have hr' := cents_backed_out hp r'.rate_nonneg r.rate_nonneg
      rw [add_comm (cents _), add_comm r'.rate] at hr'
      simp [ht, whole, Dict.ofList, Dict.put, hne] at hr hr' ⊢
      simp [hr, hr']
  · simp [ht]

end Tax

/-- The tax of one amount (`tax_for_amount`). -/
def taxForAmount (amountCents : Int) (taxClass : TaxClass) (rates : List TaxComponent) (registered : Bool) : TaxResult :=
  computeTax [{ amountCents, taxClass }] rates registered false

/-- The tax contained in a total (`tax_within`). -/
def taxWithin (totalCents : Int) (taxClass : TaxClass) (rates : List TaxComponent) (registered : Bool) : TaxResult :=
  computeTax [{ amountCents := totalCents, taxClass }] rates registered true

theorem computeTax_backed_out {l : TaxLine} (hp : 0 ≤ l.amountCents) {rates : List TaxComponent}
    (hlen : rates.length ≤ 2) (hcodes : (rates.map (·.jurisdiction)).Nodup) (registered : Bool) :
    computeTax [{ l with amountCents := (computeTax [l] rates registered false).totalCents }] rates registered true =
      computeTax [l] rates registered false := by
  have hactive : (if registered then rates else []).length ≤ 2 ∧
      ((if registered then rates else []).map (·.jurisdiction)).Nodup := by
    cases registered with
    | false => exact ⟨Nat.zero_le 2, List.nodup_nil⟩
    | true => exact ⟨hlen, hcodes⟩
  simp only [computeTax, List.map_cons, List.map_nil]
  generalize (if registered then rates else []) = active at hactive
  have htotal : (Tax.total [Tax.line l active false]).totalCents =
      (Tax.line l active false).baseCents + (Tax.line l active false).taxCents := by simp [Tax.total]
  rw [htotal, Tax.line_backed_out hp hactive.1 hactive.2]

/-! ## The rates of a province -/

theorem codes_component {δ : Type} (rows : List (Rate δ)) :
    ((rows.filterMap Rate.component).map (·.jurisdiction)).Sublist (rows.map (·.code)) := by
  induction rows with
  | nil => exact List.Sublist.refl _
  | cons row rows ih =>
    by_cases h : row.rate = 0
    · rw [List.filterMap_cons_none (by simp [Rate.component, h])]
      exact ih.cons _
    · rw [List.filterMap_cons_some (b := ⟨row.code, row.rate, row.rate_nonneg⟩) (by simp [Rate.component, h])]
      exact ih.cons_cons _

variable {ρ δ : Type} [LinearOrder δ]

theorem nodup_ratesOn (table : List (Rate δ)) (province : Option String) (on : δ) :
    ((ratesOn table province on).map (·.jurisdiction)).Nodup :=
  (nodup_latestRows _ _ _).sublist (codes_component _)

theorem mem_keepLatest (code : ρ → TaxCode) (validFrom : ρ → δ) {row x : ρ} {current : List ρ}
    (h : x ∈ keepLatest code validFrom row current) : x = row ∨ x ∈ current := by
  induction current with
  | nil => exact .inl (List.mem_singleton.1 h)
  | cons seen rest ih =>
    rw [keepLatest] at h
    split at h
    · obtain rfl | h := List.mem_cons.1 h
      · split
        · exact .inl rfl
        · exact .inr List.mem_cons_self
      · exact .inr (List.mem_cons_of_mem _ h)
    · obtain rfl | h := List.mem_cons.1 h
      · exact .inr List.mem_cons_self
      · exact (ih h).imp_right (List.mem_cons_of_mem _)

theorem mem_latestRows (code : ρ → TaxCode) (validFrom : ρ → δ) {rows : List ρ} {x : ρ}
    (h : x ∈ latestRows code validFrom rows) : x ∈ rows := by
  have hf : ∀ current : List ρ, x ∈ rows.foldl (fun current row => keepLatest code validFrom row current) current →
      x ∈ current ∨ x ∈ rows := by
    clear h
    induction rows with
    | nil => exact fun current h => .inl h
    | cons row rows ih =>
      intro current h
      obtain h | h := ih _ h
      · obtain rfl | h := mem_keepLatest code validFrom h
        · exact .inr List.mem_cons_self
        · exact .inl h
      · exact .inr (List.mem_cons_of_mem _ h)
  exact (hf [] h).resolve_left List.not_mem_nil

/-- Every code charged is one the table has for the province. -/
theorem code_ratesOn {table : List (Rate δ)} {province : Option String} {on : δ} {r : TaxComponent}
    (h : r ∈ ratesOn table province on) : ∃ row ∈ table, some row.province = province ∧ row.code = r.jurisdiction := by
  obtain ⟨row, hrow, hr⟩ := List.mem_filterMap.1 h
  obtain ⟨hmem, hp⟩ := List.mem_filter.1 (mem_latestRows _ _ hrow)
  refine ⟨row, hmem, (of_decide_eq_true hp).1, ?_⟩
  rw [Rate.component] at hr
  split at hr
  · cases hr
  · rw [← Option.some.inj hr]

/-- No province charges more than two taxes. -/
theorem length_ratesOn (province : Option String) (on : Day) : (ratesOn rateTable province on).length ≤ 2 := by
  have htable : ∀ p ∈ rateTable.map (·.province),
      ((rateTable.filter fun row => row.province = p).map (·.code)).dedup.length ≤ 2 := by decide +kernel
  cases hr : ratesOn rateTable province on with
  | nil => exact Nat.zero_le 2
  | cons r rs =>
    obtain ⟨row, hrow, hp, -⟩ := code_ratesOn (hr ▸ List.mem_cons_self : r ∈ ratesOn rateTable province on)
    rw [← hr, ← List.length_map (·.jurisdiction)]
    refine ((nodup_ratesOn rateTable province on).subperm fun c hc => ?_).length_le.trans
      (htable row.province (List.mem_map_of_mem hrow))
    obtain ⟨r', hr', rfl⟩ := List.mem_map.1 hc
    obtain ⟨row', hrow', hp', hcode⟩ := code_ratesOn hr'
    have hsame : row'.province = row.province := Option.some.inj (hp'.trans hp.symm)
    exact List.mem_dedup.2 (List.mem_map.2 ⟨row', List.mem_filter.2 ⟨hrow', by simpa using hsame⟩, hcode⟩)

/-- A renewal backs out of its price the tax the price was given, whatever the province. -/
theorem renewal_tax {priceCents : Int} (hp : 0 ≤ priceCents) (taxClass : TaxClass) (province : Option String)
    (on : Day) (registered : Bool) :
    let rates := ratesOn rateTable province on
    taxWithin (taxForAmount priceCents taxClass rates registered).totalCents taxClass rates registered =
      taxForAmount priceCents taxClass rates registered :=
  computeTax_backed_out (l := { amountCents := priceCents, taxClass }) hp (length_ratesOn province on)
    (nodup_ratesOn rateTable province on) registered

/-- Tax added to any price by at most two codes comes off the total again: the same base, and
the same cents under each code. -/
theorem tax_within_as_added {l : TaxLine} (hp : 0 ≤ l.amountCents) {rates : List TaxComponent}
    (hlen : rates.length ≤ 2) (hcodes : (rates.map (·.jurisdiction)).Nodup) (registered : Bool) :
    let added := computeTax [l] rates registered false
    let within := computeTax [{ l with amountCents := added.totalCents }] rates registered true
    within.subtotalCents = l.amountCents ∧ within = added := by
  have h := computeTax_backed_out hp hlen hcodes registered
  refine ⟨?_, h⟩
  rw [h]
  simp [computeTax, Tax.total, Tax.line_base]

/-- A price of $49.99 in Quebec. -/
theorem quebec_within_as_added :
    let rates := ratesOn rateTable (some "QC") (day 2026 1 1)
    let added := computeTax [{ amountCents := 4999 }] rates true false
    let within := computeTax [{ amountCents := added.totalCents }] rates true true
    within.subtotalCents = 4999 ∧ within = added :=
  tax_within_as_added (l := { amountCents := 4999 }) (by decide) (length_ratesOn _ _) (nodup_ratesOn _ _ _) true

end ClientBridge
