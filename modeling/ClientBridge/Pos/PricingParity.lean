import ClientBridge.Pos.Pricing

/-!
# The device prices a sale as the server does

While every product and every sum stays below `2 ^ 53`, each helper of the app computes what the server's
does: line discounts (`discountCents_eq`), the shares of the sale discount (`allocate_eq`)
and the tax of a line (`docLine_eq`).  `priceSale_agrees` puts them together.
-/

namespace ClientBridge.Pos

/-! ## Division -/

theorem floorDiv_eq {a b : Int} (ha : 0 ≤ a) (hlt : a < 2 ^ 53) (hb : 0 < b) :
    floorDiv a b = a / b := Doubles.floor_round_div ha hlt hb

theorem floorDiv_two_mul {a b : Int} (ha : 0 ≤ a) (hlt : a < 2 ^ 53) (hb : 0 < b) :
    floorDiv (2 * a) (2 * b) = a / b := by
  rw [floorDiv, Doubles.floor_round_div_two_mul ha hlt hb, Int.mul_ediv_mul_of_pos _ _ (by omega)]

theorem mathRound_whole {n : Int} (hn : 0 ≤ n) (hlt : n < 2 ^ 53) :
    mathRound (Doubles.round 53 n) = n := by
  have hc : (n : ℚ) = (n.toNat : ℚ) := by exact_mod_cast (Int.toNat_of_nonneg hn).symm
  rw [hc, Doubles.round_natCast (by zify; omega), mathRound, Int.floor_eq_iff]
  have hz : ((n.toNat : ℚ)) = (n : ℚ) := hc.symm
  constructor <;> rw [hz] <;> linarith

/-! ## Sums -/

theorem addCents_eq {a b : Int} (h : |a + b| < 2 ^ 53) : addCents a b = a + b := by
  rw [addCents, Doubles.round_intCast h, Int.floor_intCast]

theorem foldl_addCents_eq {a : Int} {xs : List Int} (h : ∀ x ∈ runningSums a xs, |x| < 2 ^ 53) :
    xs.foldl addCents a = a + xs.sum := by
  induction xs generalizing a with
  | nil => simp
  | cons x xs ih =>
    rw [List.foldl_cons, addCents_eq (h _ List.mem_cons_self), ih fun y hy => h y (List.mem_cons_of_mem _ hy),
      List.sum_cons, add_assoc]

/-- A sum whose steps are all small is exact. -/
theorem sumCents_eq {xs : List Int} (h : ∀ x ∈ runningSums 0 xs, |x| < 2 ^ 53) : sumCents xs = xs.sum := by
  rw [sumCents, foldl_addCents_eq h, zero_add]

/-! ## The request, as the two sides hold it -/

def saleDiscount (discount : DiscountIn) : SaleDiscount := ⟨discount.kind, discount.value⟩

def saleLine (inp : LineInput) : SaleLine where
  unitAmountCents := inp.unitAmountCents
  quantity := inp.quantity
  taxClass := inp.taxClass
  discount := inp.discount.map saleDiscount

/-- A positive whole quantity. -/
def LineInput.Whole (inp : LineInput) : Prop := ∃ n : ℕ, inp.quantity = n

theorem gross_eq {inp : LineInput} (hw : LineInput.Whole inp)
    (hp : (inp.unitAmountCents : ℚ) * inp.quantity < 2 ^ 53) :
    (saleLine inp).gross = inp.line.grossCents := by
  obtain ⟨n, hn⟩ := hw
  have hq : inp.line.quantity = ((n : Int) : ℚ) := hn
  have hm : (inp.unitAmountCents : ℚ) * inp.quantity = ((n * inp.unitAmountCents : Int) : ℚ) := by
    rw [hn]
    push_cast
    ring
  have hu := inp.unit_nonneg
  rw [LineRow.grossCents_whole hq]
  show mathRound (Doubles.round 53 (inp.unitAmountCents * inp.quantity)) = n * inp.unitAmountCents
  rw [hm] at hp ⊢
  exact mathRound_whole (by positivity) (by exact_mod_cast hp)

theorem grossCents_nonneg {inp : LineInput} (hw : LineInput.Whole inp) :
    0 ≤ inp.line.grossCents := by
  obtain ⟨n, hn⟩ := hw
  have hq : inp.line.quantity = ((n : Int) : ℚ) := hn
  have hu := inp.unit_nonneg
  rw [LineRow.grossCents_whole hq]
  show 0 ≤ (n : Int) * inp.unitAmountCents
  positivity

/-! ## Discounts -/

/-- The app takes off what the server does. -/
theorem discountCents_eq (base : Int) (discount : Option DiscountIn)
    (hp : ∀ x ∈ discountProducts base (discount.map saleDiscount), x < 2 ^ 53) :
    discountCents base (discount.map saleDiscount) =
      discountOff base (setDiscount discount).kind (setDiscount discount).value := by
  cases discount with
  | none => rfl
  | some d =>
    by_cases hb : base ≤ 0
    · simp [discountCents, discountOff, setDiscount, hb]
    · obtain ⟨kind, value, hv, hle⟩ := d
      simp only [discountCents, discountOff, setDiscount, saleDiscount, Option.map_some, if_neg hb]
      have hpos : 0 < base := by omega
      cases kind with
      | amount =>
        show min base (max 0 value) = max 0 (min base value)
        omega
      | percent =>
        have hx : base * value * 2 < 2 ^ 53 := by
          have := hp ((base * value * 2 : Int) : ℚ) (by simp [discountProducts, saleDiscount])
          exact_mod_cast this
        have h0 : 0 ≤ base * value := Int.mul_nonneg hpos.le hv.le
        have hd : floorDiv (base * value * 2 + 100) 200 = (base * value * 2 + 100) / 200 := by
          have ha : base * value * 2 + 100 = 2 * (base * value + 50) := by ring
          rw [ha, show (200 : Int) = 2 * 100 from rfl, floorDiv_two_mul (by omega) (by omega) (by omega)]
          omega
        simp only [hd]
        omega

/-! ## Sharing the sale discount -/

theorem topUp_eq (order : List Nat) (left : Int) (parts : List Int) :
    topUp order left parts = Apportion.bumpAll parts (order.take left.toNat) := by
  induction order generalizing left parts with
  | nil => simp [topUp, Apportion.bumpAll]
  | cons i order ih =>
    by_cases h : left ≤ 0
    · have hz : left.toNat = 0 := by omega
      simp [topUp, h, hz, Apportion.bumpAll]
    · have hs : left.toNat = (left - 1).toNat + 1 := by omega
      rw [topUp, if_neg h, ih, hs, List.take_succ_cons]
      rfl

theorem getD_nonneg {weights : List Int} (hw : ∀ w ∈ weights, 0 ≤ w) (i : Nat) :
    0 ≤ weights.getD i 0 := by
  rw [List.getD_eq_getElem?_getD]
  cases h : weights[i]? with
  | none => exact le_refl 0
  | some w => exact hw w (List.mem_of_getElem? h)

theorem topUpOrder_eq {total : Int} (ht : 0 ≤ total) {weights : List Int} (hw : ∀ w ∈ weights, 0 ≤ w)
    (hsum : sumCents weights = weights.sum) : topUpOrder total weights = remainderOrder total weights := by
  have hr : ∀ i, (total * weights.getD i 0).tmod weights.sum = total * weights.getD i 0 % weights.sum :=
    fun i => Int.tmod_eq_emod_of_nonneg (Int.mul_nonneg ht (getD_nonneg hw i))
  unfold topUpOrder remainderOrder
  simp only [hsum, hr]
  rw [← List.map_insertionSort
    (r := fun i j => total * weights.getD j 0 % weights.sum < total * weights.getD i 0 % weights.sum ∨
      (total * weights.getD i 0 % weights.sum = total * weights.getD j 0 % weights.sum ∧ i ≤ j)),
    List.map_map]
  · exact List.map_id _
  · intro i _ j _
    simp only [sub_neg, sub_eq_zero]
    rw [eq_comm (a := total * weights.getD i 0 % weights.sum)]

/-- The app shares a discount as the server does. -/
theorem allocate_eq {total : Int} (ht : 0 ≤ total) {weights : List Int} (hw : ∀ w ∈ weights, 0 ≤ w)
    (hp : ∀ w ∈ weights, total * w < 2 ^ 53) (hs : ∀ x ∈ runningSums 0 weights, |x| < 2 ^ 53)
    (hparts : ∀ x ∈ runningSums 0 (floorParts total weights), |x| < 2 ^ 53) :
    allocate total weights = ClientBridge.allocate total weights := by
  have hsum := sumCents_eq hs
  simp only [allocate, ClientBridge.allocate, hsum]
  split
  · rfl
  · next h =>
    have hpos : 0 < weights.sum := by omega
    have hf : floorParts total weights = Apportion.floors total weights.sum weights := by
      rw [floorParts, hsum]
      exact List.map_congr_left fun w hm => floorDiv_eq (Int.mul_nonneg ht (hw w hm)) (hp w hm) hpos
    rw [sumCents_eq hparts, hf, topUp_eq, topUpOrder_eq ht hw hsum]

/-! ## Tax -/

theorem halfUp_eq {amount ppm : Int} (hp : 2 * |amount * ppm| < 2 ^ 53) {r : ℚ}
    (hr : (ppm : ℚ) = r * 1000000) :
    halfUp (amount * ppm) 1000000 = Tax.cents (amount * r / 1) := by
  have hq : (amount : ℚ) * r / 1 = ((amount * ppm : Int) : ℚ) / 1000000 := by
    push_cast
    rw [hr]
    field_simp
  rw [hq]
  generalize amount * ppm = num at hp ⊢
  have hsign : (0 : ℚ) ≤ (num : ℚ) / 1000000 ↔ 0 ≤ num := by
    rw [le_div_iff₀ (by norm_num), zero_mul]
    exact Int.cast_nonneg_iff
  have habs : |(num : ℚ) / 1000000| + 1 / 2 = ((|num| + 500000 : Int) : ℚ) / ((1000000 : ℕ) : ℚ) := by
    rw [abs_div, abs_of_pos (show (0 : ℚ) < 1000000 by norm_num)]
    push_cast
    ring
  have hwhole : floorDiv (2 * |num| + 1000000) (2 * 1000000) = (|num| + 500000) / 1000000 := by
    have h0 := abs_nonneg num
    have hd : 2 * |num| + 1000000 = 2 * (|num| + 500000) := by omega
    rw [hd, floorDiv_two_mul (by omega) (by omega) (by omega)]
  simp only [halfUp, Tax.cents, hsign, habs, hwhole, Rat.floor_intCast_div_natCast]
  by_cases hn : num < 0
  · rw [if_pos hn, if_neg (by omega)]
    push_cast
    omega
  · rw [if_neg hn, if_pos (by omega)]
    rfl

theorem applied_match {rates : List TaxComponent} {drates : List DocRate}
    (h : List.Forall₂ TaxComponent.Matches rates drates) (taxClass : TaxClass) :
    List.Forall₂ TaxComponent.Matches (Tax.applied taxClass rates) (appliedRates taxClass drates) := by
  cases taxClass with
  | standard => exact h
  | exempt => exact List.Forall₂.nil
  | federalOnly =>
    simp only [Tax.applied, appliedRates]
    induction h with
    | nil => exact List.Forall₂.nil
    | @cons r d rs ds hrd hrest ih =>
      by_cases hf : r.jurisdiction.isFederal = true
      · have hd : d.code.isFederal = true := by rw [hrd.1]; exact hf
        simp only [List.filter_cons, hf, hd, if_true]
        exact List.Forall₂.cons hrd ih
      · have hd : ¬d.code.isFederal = true := by rw [hrd.1]; exact hf
        simp only [List.filter_cons, hf, hd]
        exact ih

theorem map_halfUp_eq {rates : List TaxComponent} {drates : List DocRate}
    (h : List.Forall₂ TaxComponent.Matches rates drates) {amount : Int}
    (hp : ∀ d ∈ drates, 2 * |amount * d.ppm| < 2 ^ 53) :
    (drates.map fun d => (d.code, halfUp (amount * d.ppm) 1000000)) =
      rates.map fun r => (r.jurisdiction, Tax.cents (amount * r.rate / 1)) := by
  induction h with
  | nil => rfl
  | @cons r d rs ds hrd hrest ih =>
    rw [List.map_cons, List.map_cons, halfUp_eq (hp d List.mem_cons_self) hrd.2, hrd.1,
      ih fun d hm => hp d (List.mem_cons_of_mem _ hm)]

/-- Tax on top of a taxable line: code by code, and what they add up to. -/
theorem line_exclusive (amount : Int) (taxClass : TaxClass) (rates : List TaxComponent) :
    Tax.line { amountCents := amount, taxClass := taxClass } rates false =
      let byCode := Dict.ofList ((Tax.applied taxClass rates).map fun r =>
        (r.jurisdiction, Tax.cents (amount * r.rate / 1)))
      ⟨amount, Dict.total byCode, byCode⟩ := by
  simp only [Tax.line]
  cases h : Tax.applied taxClass rates with
  | nil => simp [Dict.ofList]
  | cons r rs => simp

/-- The app taxes a line as the server does. -/
theorem docLine_eq {rates : List TaxComponent} {drates : List DocRate}
    (h : List.Forall₂ TaxComponent.Matches rates drates) {amount : Int} (taxClass : TaxClass)
    (included : Bool) (hp : ∀ d ∈ appliedRates taxClass drates, 2 * |amount * d.ppm| < 2 ^ 53)
    (hs : ∀ x ∈ runningSums 0 ((docLine drates false ⟨amount, taxClass, included⟩).taxByCode.map (·.2)), |x| < 2 ^ 53) :
    docLine drates false ⟨amount, taxClass, included⟩ =
      let t := Tax.line { amountCents := amount, taxClass := taxClass } rates false
      ⟨t.byJurisdiction, t.taxCents, t.baseCents⟩ := by
  have hm := applied_match h taxClass
  have hl : lineTax amount taxClass drates false =
      (Tax.line { amountCents := amount, taxClass := taxClass } rates false).byJurisdiction := by
    rw [line_exclusive, lineTax]
    simp only [Bool.false_eq_true, if_false, Int.add_zero]
    rw [map_halfUp_eq hm hp]
  have hsum := sumCents_eq hs
  simp only [docLine, hl] at hsum ⊢
  rw [hsum, line_exclusive]
  rfl

/-! ## Documents -/

/-- What a document's printed taxes say under one code. -/
def codeCents (taxes : List PrintedDocTax) (c : TaxCode) : Int :=
  Dict.get (taxes.map fun t => (t.code, t.cents)) c

theorem nodup_byJurisdiction (l : TaxLine) (rates : List TaxComponent) (inclusive : Bool) :
    (Dict.keys (Tax.line l rates inclusive).byJurisdiction).Nodup := by
  simp only [Tax.line]
  split
  · exact List.nodup_nil
  · exact Dict.nodup_ofList _

/-- A line is taxed only under the codes of its rates. -/
theorem mem_byJurisdiction {l : TaxLine} {rates : List TaxComponent} {inclusive : Bool} {c : TaxCode}
    (h : c ∈ Dict.keys (Tax.line l rates inclusive).byJurisdiction) :
    c ∈ rates.map (·.jurisdiction) := by
  simp only [Tax.line] at h
  split at h
  · cases h
  · have hk := Dict.mem_keys_ofList h
    simp only [Dict.keys, List.map_map, List.mem_map, Function.comp_apply] at hk
    obtain ⟨r, hr, rfl⟩ := hk
    refine List.mem_map.2 ⟨r, ?_, rfl⟩
    cases hc : l.taxClass with
    | standard => rwa [hc] at hr
    | exempt => rw [hc] at hr; cases hr
    | federalOnly => rw [hc] at hr; exact List.mem_of_mem_filter hr

theorem taxCents_eq_total (l : TaxLine) (rates : List TaxComponent) (inclusive : Bool) :
    (Tax.line l rates inclusive).taxCents =
      Dict.total (Tax.line l rates inclusive).byJurisdiction := by
  simp only [Tax.line]
  split <;> rfl

/-- A document's tax under a code, line by line. -/
theorem code_total_lines (ls : List TaxLine) (rates : List TaxComponent) (c : TaxCode) :
    (Tax.total (ls.map fun l => Tax.line l rates false)).code c =
      ((ls.map fun l => Tax.line l rates false).map fun t => Dict.get t.byJurisdiction c).sum := by
  rw [Tax.code_total]
  induction ls with
  | nil => rfl
  | cons l ls ih =>
    have hone := Dict.sumAt_eq_get (nodup_byJurisdiction l rates false) c
    simp only [List.map_cons, List.flatMap_cons, List.sum_cons] at ih ⊢
    rw [← ih, ← hone]
    simp [Dict.sumAt]

/-- The printed taxes are those of the rates that owe something. -/
theorem printed_eq (kept : List DocLine) (drates : List DocRate) :
    (((drates.map (docTax kept)).filter fun t => t.cents ≠ 0).map fun t => (t.code, t.cents)) =
      (drates.filter fun r => (docTax kept r).cents ≠ 0).map fun r => (r.code, (docTax kept r).cents) := by
  rw [List.filter_map, List.map_map]
  rfl

theorem sum_cents_filter (kept : List DocLine) (rs : List DocRate) :
    ((((rs.map (docTax kept)).filter fun t => t.cents ≠ 0).map (·.cents))).sum =
      (rs.map fun r => (docTax kept r).cents).sum := by
  induction rs with
  | nil => rfl
  | cons r rs ih =>
    by_cases hz : (docTax kept r).cents = 0 <;> simpa [List.filter_cons, hz] using ih

theorem mem_printed {kept : List DocLine} {drates : List DocRate} {c : TaxCode}
    (hm : c ∈ Dict.keys ((drates.filter fun r => (docTax kept r).cents ≠ 0).map
      fun r => (r.code, (docTax kept r).cents))) :
    ∃ r ∈ drates, (docTax kept r).cents ≠ 0 ∧ r.code = c := by
  simp only [Dict.keys, List.map_map, List.mem_map, List.mem_filter, Function.comp_apply] at hm
  obtain ⟨r, ⟨hr, hne⟩, hcode⟩ := hm
  exact ⟨r, hr, by simpa using hne, hcode⟩

section
variable {rates : List TaxComponent} {drates : List DocRate}
  (h : List.Forall₂ TaxComponent.Matches rates drates)
include h

theorem codes_match : drates.map (·.code) = rates.map (·.jurisdiction) := by
  induction h with
  | nil => rfl
  | cons hrd hrest ih => rw [List.map_cons, List.map_cons, ih, hrd.1]

variable (hd : (drates.map (·.code)).Nodup) {kept : List DocLine} {ls : List TaxLine}
  (hk : kept.map (·.taxByCode) = ls.map fun l => (Tax.line l rates false).byJurisdiction)
include hk

omit h in
/-- Under a rate the document owes what its lines owe under that code. -/
theorem cents_docTax {r : DocRate}
    (hs : ∀ x ∈ runningSums 0 ((taxedBy kept r).map fun t => Dict.get t.taxByCode r.code), |x| < 2 ^ 53) :
    (docTax kept r).cents =
      ((ls.map fun l => Tax.line l rates false).map fun t => Dict.get t.byJurisdiction r.code).sum := by
  have hall : ∀ ks : List DocLine,
      ((ks.filter fun t => r.code ∈ Dict.keys t.taxByCode).map fun t => Dict.get t.taxByCode r.code).sum =
        ((ks.map (·.taxByCode)).map fun d => Dict.get d r.code).sum := by
    intro ks
    induction ks with
    | nil => rfl
    | cons t ks ih =>
      by_cases hm : r.code ∈ Dict.keys t.taxByCode
      · simp [hm, ih]
      · simp [hm, ih, Dict.get_of_not_mem hm]
  show sumCents ((taxedBy kept r).map fun t => Dict.get t.taxByCode r.code) = _
  rw [sumCents_eq hs, taxedBy, hall, hk, List.map_map, List.map_map]
  rfl

include hd

variable (hs : ∀ r ∈ drates, ∀ x ∈ runningSums 0 ((taxedBy kept r).map fun t => Dict.get t.taxByCode r.code), |x| < 2 ^ 53)
include hs

/-- Added up by rate or by line, the tax is the same. -/
theorem sum_docTax :
    (drates.map fun r => (docTax kept r).cents).sum =
      ((ls.map fun l => Tax.line l rates false).map (·.taxCents)).sum := by
  rw [List.map_congr_left fun r hr => cents_docTax hk (hs r hr)]
  clear hk hs
  induction ls with
  | nil => simp
  | cons l ls ih =>
    have hl : (drates.map fun r => Dict.get (Tax.line l rates false).byJurisdiction r.code).sum =
        (Tax.line l rates false).taxCents := by
      rw [taxCents_eq_total, ← Dict.sum_get_of_subset (nodup_byJurisdiction l rates false) hd fun c hc => ?_,
        List.map_map]
      · rfl
      · rw [codes_match h]
        exact mem_byJurisdiction hc
    simp only [List.map_cons, List.sum_cons, List.sum_map_add] at ih ⊢
    rw [hl, ih]

/-- The printed taxes say under every code what the server's say. -/
theorem codeCents_eq (c : TaxCode) :
    codeCents ((drates.map (docTax kept)).filter fun t => t.cents ≠ 0) c =
      (Tax.total (ls.map fun l => Tax.line l rates false)).code c := by
  rw [code_total_lines, codeCents, printed_eq]
  have hcodes : (Dict.keys ((drates.filter fun r => (docTax kept r).cents ≠ 0).map
      fun r => (r.code, (docTax kept r).cents))).Nodup := by
    rw [Dict.keys, List.map_map]
    exact hd.sublist (List.filter_sublist.map _)
  by_cases hc : c ∈ drates.map (·.code)
  · obtain ⟨r, hr, rfl⟩ := List.mem_map.1 hc
    rw [← cents_docTax hk (hs r hr)]
    by_cases hz : (docTax kept r).cents = 0
    · rw [hz]
      apply Dict.get_of_not_mem
      intro hm
      obtain ⟨r', hr', hne, hcode⟩ := mem_printed hm
      have he : r' = r := List.inj_on_of_nodup_map hd hr' hr hcode
      exact hne (he ▸ hz)
    · have hm : (r.code, (docTax kept r).cents) ∈ (drates.filter fun r => (docTax kept r).cents ≠ 0).map
          fun r => (r.code, (docTax kept r).cents) :=
        List.mem_map_of_mem (List.mem_filter.2 ⟨hr, by simpa using hz⟩)
      exact Dict.get_of_mem hcodes hm
  · -- no rate has the code, so no line is taxed under it either
    have hzero : ((ls.map fun l => Tax.line l rates false).map fun t =>
        Dict.get t.byJurisdiction c).sum = 0 := by
      apply List.sum_eq_zero
      intro x hx
      simp only [List.map_map, List.mem_map, Function.comp_apply] at hx
      obtain ⟨l, -, rfl⟩ := hx
      apply Dict.get_of_not_mem
      intro hm
      rw [codes_match h] at hc
      exact hc (mem_byJurisdiction hm)
    rw [hzero]
    apply Dict.get_of_not_mem
    intro hm
    obtain ⟨r, hr, -, rfl⟩ := mem_printed hm
    exact hc (List.mem_map_of_mem hr)

end

/-! ## The sale -/

/-- The two sides say the same of a sale: line by line, and in its totals. -/
structure SameSale (sale : PricedSale) (doc : DocPricing) (lines : List LineRow) (tax : TaxResult) :
    Prop where
  discounts : sale.lines.map (·.lineDiscountCents) = lines.map (·.discountCents)
  shares : sale.lines.map (·.saleDiscountShareCents) = lines.map (·.saleDiscountCents)
  nets : sale.lines.map (·.netCents) = lines.map (·.amountCents)
  lineTaxes : doc.lines.map (·.taxByCode) = tax.lines.map (·.byJurisdiction)
  taxCents : sale.lines.map (·.taxCents) = tax.lines.map (·.taxCents)
  subtotal : sale.totals.subtotalCents = tax.subtotalCents
  taxes : ∀ c, codeCents sale.totals.taxes c = tax.code c
  taxTotal : sale.totals.taxCents = tax.taxTotalCents
  total : sale.totals.totalCents = tax.totalCents

theorem map_getD_zipIdx {α β : Type} (d : β) {xs : List α} {ys : List β} (h : ys.length = xs.length) :
    (xs.zipIdx.map fun p => ys.getD p.2 d) = ys := by
  apply List.ext_getElem
  · simp [h]
  · intro i h1 h2
    simp [List.getElem?_eq_getElem h2]

theorem map_fst_zipIdx {α β : Type} (f : α → β) (xs : List α) :
    (xs.zipIdx.map fun p => f p.1) = xs.map f := by
  apply List.ext_getElem
  · simp
  · intro i h1 h2
    simp

section
variable {inputs : List LineInput} {discount : Option DiscountIn}
  (hw : ∀ inp ∈ inputs, LineInput.Whole inp) (hopt : ∀ inp ∈ inputs, inp.optional = false)
  {drates : List DocRate} {registered : Bool}
  (hp : ∀ x ∈ saleProducts (inputs.map saleLine) (discount.map saleDiscount) drates registered,
    x < 2 ^ 53)
  (hs : ∀ x ∈ saleSums (inputs.map saleLine) (discount.map saleDiscount) drates registered, |x| < 2 ^ 53)

theorem discount_products {l : SaleLine} {ls : List SaleLine} (hl : l ∈ ls)
    {d : Option SaleDiscount} {x : ℚ} (hx : x ∈ discountProducts l.gross l.discount) :
    x ∈ saleProducts ls d drates registered := by
  simp only [saleProducts, List.mem_append, List.mem_flatMap]
  exact Or.inl (Or.inl (Or.inl (Or.inr ⟨l, hl, hx⟩)))

include hw hp

theorem gross_of_products {inp : LineInput} (hi : inp ∈ inputs) :
    (saleLine inp).gross = inp.line.grossCents := by
  refine gross_eq (hw inp hi) (hp _ ?_)
  simp only [saleProducts, List.mem_append]
  exact Or.inl (Or.inl (Or.inl (Or.inl (List.mem_map.2 ⟨saleLine inp, List.mem_map_of_mem hi, rfl⟩))))

theorem off_of_products {inp : LineInput} (hi : inp ∈ inputs) :
    (saleLine inp).off = inp.line.lessDiscount.discountCents := by
  have hg := gross_of_products hw hp hi
  rw [SaleLine.off, hg]
  refine discountCents_eq _ inp.discount fun x hx => hp x ?_
  rw [← hg] at hx
  exact discount_products (List.mem_map_of_mem hi) hx

include hopt

theorem bases_of_products :
    (inputs.map saleLine).map SaleLine.base =
      ((inputs.map LineInput.line).map LineRow.lessDiscount).map LineRow.base := by
  rw [List.map_map, List.map_map, List.map_map]
  refine List.map_congr_left fun inp hi => ?_
  have hinc : inp.line.lessDiscount.included = true := by
    simp [LineRow.included, LineRow.lessDiscount, LineInput.line, hopt inp hi]
  show (saleLine inp).gross - (saleLine inp).off = inp.line.lessDiscount.base
  rw [gross_of_products hw hp hi, off_of_products hw hp hi, LineRow.base, hinc]
  rfl

omit hw hopt hp in
include hs in
theorem sumCents_bases :
    sumCents ((inputs.map saleLine).map SaleLine.base) = ((inputs.map saleLine).map SaleLine.base).sum :=
  sumCents_eq fun x hx => hs x (List.mem_append_left _ (List.mem_append_left _ hx))

include hs

theorem saleOff_of_products :
    saleOff (inputs.map saleLine) (discount.map saleDiscount) =
      documentOff (some (setDiscount discount))
        (((inputs.map LineInput.line).map LineRow.lessDiscount).map LineRow.base) := by
  rw [saleOff, documentOff, ← bases_of_products hw hopt hp, ← sumCents_bases hs]
  refine discountCents_eq _ discount fun x hx => hp x ?_
  simp only [saleProducts, List.mem_append]
  exact Or.inl (Or.inl (Or.inr hx))

omit hopt hs in
theorem base_nonneg_of_products {inp : LineInput} (hi : inp ∈ inputs) : 0 ≤ (saleLine inp).base := by
  rw [SaleLine.base, gross_of_products hw hp hi, off_of_products hw hp hi]
  have hle := discountOff_le (grossCents_nonneg (hw inp hi)) inp.line.discount.kind inp.line.discount.value
  show 0 ≤ inp.line.grossCents - discountOff _ _ _
  omega

theorem shares_of_products :
    shares (inputs.map saleLine) (discount.map saleDiscount) =
      ClientBridge.allocate
        (documentOff (some (setDiscount discount))
          (((inputs.map LineInput.line).map LineRow.lessDiscount).map LineRow.base))
        (((inputs.map LineInput.line).map LineRow.lessDiscount).map LineRow.base) := by
  rw [shares, ← bases_of_products hw hopt hp, bases_of_products hw hopt hp,
    ← saleOff_of_products hw hopt hp hs, ← bases_of_products hw hopt hp]
  apply allocate_eq
  · rw [saleOff_of_products hw hopt hp hs]
    exact discountOff_nonneg _ _ _
  · intro w hm
    simp only [List.map_map, List.mem_map, Function.comp_apply] at hm
    obtain ⟨inp, hi, rfl⟩ := hm
    exact base_nonneg_of_products hw hp hi
  · intro w hm
    obtain ⟨l, hl, rfl⟩ := List.mem_map.1 hm
    have hx : ((saleOff (inputs.map saleLine) (discount.map saleDiscount) * l.base : Int) : ℚ) < 2 ^ 53 := by
      apply hp
      simp only [saleProducts, List.mem_append]
      exact Or.inl (Or.inr (List.mem_map.2 ⟨l, hl, rfl⟩))
    exact_mod_cast hx
  · exact fun x hx => hs x (List.mem_append_left _ (List.mem_append_left _ hx))
  · exact fun x hx => hs x (List.mem_append_left _ (List.mem_append_right _ hx))

theorem nets_of_products :
    nets (inputs.map saleLine) (discount.map saleDiscount) =
      (priceLines (inputs.map LineInput.line) (some (setDiscount discount))).map (·.amountCents) := by
  rw [nets, shares_of_products hw hopt hp hs, bases_of_products hw hopt hp, priceLines, List.map_zipWith]
  apply List.ext_getElem
  · simp
  · intro i h1 h2
    simp only [List.getElem_zipWith, List.getElem_map, LineRow.lessShare, LineRow.base]
    rw [if_pos]
    have hi : i < inputs.length := by simpa using h1
    simp [LineRow.included, LineRow.lessDiscount, LineInput.line, hopt _ (List.getElem_mem hi)]

end

/-- Pricing leaves the lines' classes alone. -/
theorem taxClass_priceLines (lines : List LineRow) (document : Option Discounted) :
    (priceLines lines document).map (·.taxClass) = lines.map (·.taxClass) := by
  rw [priceLines, map_zipWith_left LineRow.lessShare (·.taxClass) (·.taxClass) (fun a b => rfl) (by simp),
    List.map_map]
  rfl

theorem saleDoc_lines {inputs : List LineInput} {server : List LineRow}
    (hc : server.map (·.taxClass) = inputs.map (·.taxClass)) :
    (List.zipWith (fun (l : SaleLine) (net : Int) => (⟨net, l.taxClass, true⟩ : PricedLine))
      (inputs.map saleLine) (server.map (·.amountCents))) =
        server.map fun ln => ⟨ln.amountCents, ln.taxClass, true⟩ := by
  induction server generalizing inputs with
  | nil =>
    cases inputs with
    | nil => rfl
    | cons inp inputs => cases hc
  | cons ln server ih =>
    cases inputs with
    | nil => cases hc
    | cons inp inputs =>
      simp only [List.map_cons, List.cons.injEq] at hc
      rw [List.map_cons, List.map_cons, List.zipWith_cons_cons, ih hc.2, List.map_cons, hc.1]
      rfl

/-- What the server says of a line's tax, as the app holds it. -/
def taxDoc (rates : List TaxComponent) (ln : LineRow) : DocLine :=
  let t := Tax.line ln.taxLine rates false
  ⟨t.byJurisdiction, t.taxCents, t.baseCents⟩

theorem forall_docSums {lines : List PricedLine} {rates : List DocRate} {inclusive : Bool} {P : Int → Prop} :
    (∀ x ∈ docSums lines rates inclusive, P x) ↔
      (((((∀ l ∈ lines, ∀ x ∈ runningSums 0 ((docLine rates inclusive l).taxByCode.map (·.2)), P x) ∧
        ∀ r ∈ rates, ∀ x ∈ runningSums 0 ((taxedBy ((lines.filter (·.included)).map (docLine rates inclusive)) r).map
          fun t => Dict.get t.taxByCode r.code), P x) ∧
        ∀ x ∈ runningSums 0 (((lines.filter (·.included)).map (docLine rates inclusive)).map (·.baseCents)), P x) ∧
        ∀ x ∈ runningSums 0 ((priceDoc lines rates inclusive).taxes.map (·.cents)), P x) ∧
        P ((priceDoc lines rates inclusive).subtotalCents + (priceDoc lines rates inclusive).taxCents)) := by
  unfold docSums
  dsimp only
  rw [List.forall_mem_append, List.forall_mem_append, List.forall_mem_append, List.forall_mem_append,
    List.forall_mem_flatMap, List.forall_mem_flatMap, List.forall_mem_map, List.forall_mem_singleton]

/-- The app's document over the server's lines is the server's. -/
theorem priceDoc_eq {rates : List TaxComponent} {drates : List DocRate}
    (h : List.Forall₂ TaxComponent.Matches rates drates) (hd : (drates.map (·.code)).Nodup)
    {server : List LineRow}
    (hp : ∀ ln ∈ server, ∀ d ∈ appliedRates ln.taxClass drates, 2 * |ln.amountCents * d.ppm| < 2 ^ 53)
    (hs : ∀ x ∈ docSums (server.map fun ln => ⟨ln.amountCents, ln.taxClass, true⟩) drates false, |x| < 2 ^ 53) :
    let doc := priceDoc (server.map fun ln => ⟨ln.amountCents, ln.taxClass, true⟩) drates false
    let tax := computeTax (server.map LineRow.taxLine) rates true false
    doc.lines = server.map (taxDoc rates) ∧ doc.subtotalCents = tax.subtotalCents ∧
      doc.taxCents = tax.taxTotalCents ∧ doc.totalCents = tax.totalCents ∧
      ∀ c, codeCents doc.taxes c = tax.code c := by
  obtain ⟨⟨⟨⟨hlineSums, hcodeSums⟩, hbaseSums⟩, htaxSums⟩, htotal⟩ := forall_docSums.1 hs
  have hlines : (server.map fun ln : LineRow => (⟨ln.amountCents, ln.taxClass, true⟩ : PricedLine)).map
      (docLine drates false) = server.map (taxDoc rates) := by
    rw [List.map_map]
    exact List.map_congr_left fun ln hl =>
      docLine_eq h ln.taxClass true (hp ln hl) (hlineSums _ (List.mem_map_of_mem hl))
  have hall : (server.map fun ln : LineRow => (⟨ln.amountCents, ln.taxClass, true⟩ : PricedLine)).filter
      (·.included) = server.map fun ln => ⟨ln.amountCents, ln.taxClass, true⟩ := by
    rw [List.filter_eq_self]
    simp
  rw [hall, hlines] at hcodeSums hbaseSums
  have hk : (server.map (taxDoc rates)).map (·.taxByCode) =
      (server.map LineRow.taxLine).map fun l => (Tax.line l rates false).byJurisdiction := by
    rw [List.map_map, List.map_map]
    rfl
  have htax : computeTax (server.map LineRow.taxLine) rates true false =
      Tax.total ((server.map LineRow.taxLine).map fun l => Tax.line l rates false) := rfl
  have hsub : (priceDoc (server.map fun ln => ⟨ln.amountCents, ln.taxClass, true⟩) drates false).subtotalCents =
      (computeTax (server.map LineRow.taxLine) rates true false).subtotalCents := by
    simp only [priceDoc, hall, hlines]
    rw [sumCents_eq hbaseSums, htax, Tax.total, List.map_map, List.map_map, List.map_map]
    rfl
  have hsum : (priceDoc (server.map fun ln => ⟨ln.amountCents, ln.taxClass, true⟩) drates false).taxCents =
      (computeTax (server.map LineRow.taxLine) rates true false).taxTotalCents := by
    show sumCents ((priceDoc _ _ _).taxes.map (·.cents)) = _
    rw [sumCents_eq htaxSums]
    simp only [priceDoc, hall, hlines]
    rw [sum_cents_filter, sum_docTax h hd hk hcodeSums, htax]
    rfl
  refine ⟨by simp only [priceDoc, hlines], hsub, hsum, ?_, fun c => ?_⟩
  · show addCents (priceDoc _ _ _).subtotalCents (priceDoc _ _ _).taxCents = _
    rw [addCents_eq htotal, hsub, hsum]
    rfl
  · simp only [priceDoc, hall, hlines]
    exact codeCents_eq h hd hk hcodeSums c

/-- The server's rates when registered, and the device's, as each passes them on. -/
theorem computeTax_registered (ls : List TaxLine) (rates : List TaxComponent) (registered : Bool) :
    computeTax ls rates registered false =
      computeTax ls (if registered then rates else []) true false := by
  cases registered <;> rfl

theorem docRates_match {rates : List TaxComponent} {drates : List DocRate}
    (h : List.Forall₂ TaxComponent.Matches rates drates) (registered : Bool) :
    List.Forall₂ TaxComponent.Matches (if registered then rates else []) (docRates drates registered) := by
  cases registered with
  | true => exact h
  | false => exact List.Forall₂.nil

theorem nodup_docRates {drates : List DocRate} (h : (drates.map (·.code)).Nodup) (registered : Bool) :
    ((docRates drates registered).map (·.code)).Nodup := by
  cases registered with
  | true => exact h
  | false => exact List.nodup_nil

theorem taxProducts_lt {inputs : List LineInput} {server : List LineRow} {drates : List DocRate}
    (hc : server.map (·.taxClass) = inputs.map (·.taxClass))
    (hp : ∀ x ∈ (List.zipWith (fun l net => taxProducts l net drates) (inputs.map saleLine)
      (server.map (·.amountCents))).flatten, x < 2 ^ 53) :
    ∀ ln ∈ server, ∀ d ∈ appliedRates ln.taxClass drates, 2 * |ln.amountCents * d.ppm| < 2 ^ 53 := by
  induction server generalizing inputs with
  | nil => simp
  | cons ln server ih =>
    cases inputs with
    | nil => cases hc
    | cons inp inputs =>
      simp only [List.map_cons, List.cons.injEq] at hc
      simp only [List.map_cons, List.zipWith_cons_cons, List.flatten_cons, List.mem_append] at hp
      intro x hx d hd
      rcases List.mem_cons.1 hx with rfl | hx
      · have hq : ((2 * |x.amountCents * d.ppm| : Int) : ℚ) < 2 ^ 53 := by
          apply hp
          left
          rw [hc.1] at hd
          exact List.mem_map.2 ⟨d, hd, rfl⟩
        exact_mod_cast hq
      · exact ih hc.2 (fun y hy => hp y (Or.inr hy)) x hx d hd

/-- What an order's request becomes: none of its lines is optional, and they are priced under its discount. -/
theorem replaceLines_order {inputs : List LineInput} {document : Option Discounted} {lines : List LineRow}
    (h : replaceLines .order inputs document = .ok lines) :
    (∀ inp ∈ inputs, inp.optional = false) ∧ lines = priceLines (inputs.map LineInput.line) document := by
  unfold replaceLines at h
  split at h
  · cases h
  · next hn =>
    refine ⟨fun inp hi => ?_, by cases h; rfl⟩
    by_contra hne
    exact hn ⟨by decide, List.any_eq_true.2 ⟨inp, hi, by simpa using hne⟩⟩

theorem taxClass_inputs (inputs : List LineInput) (document : Option Discounted) :
    (priceLines (inputs.map LineInput.line) document).map (·.taxClass) = inputs.map (·.taxClass) := by
  rw [taxClass_priceLines, List.map_map]
  rfl

section
variable {inputs : List LineInput} {discount : Option DiscountIn} {rates : List TaxComponent} {drates : List DocRate}
  {registered : Bool} (hw : ∀ inp ∈ inputs, LineInput.Whole inp) (hopt : ∀ inp ∈ inputs, inp.optional = false)
  (hp : ∀ x ∈ saleProducts (inputs.map saleLine) (discount.map saleDiscount) drates registered, x < 2 ^ 53)
  (hs : ∀ x ∈ saleSums (inputs.map saleLine) (discount.map saleDiscount) drates registered, |x| < 2 ^ 53)
include hw hopt hp hs

/-- The document the app prices for a sale has the server's lines. -/
theorem saleDocLines_of_products :
    saleDocLines (inputs.map saleLine) (discount.map saleDiscount) =
      (priceLines (inputs.map LineInput.line) (some (setDiscount discount))).map
        fun ln => ⟨ln.amountCents, ln.taxClass, true⟩ := by
  rw [saleDocLines, nets_of_products hw hopt hp hs, saleDoc_lines (taxClass_inputs _ _)]

theorem docSums_of_sums :
    ∀ x ∈ docSums ((priceLines (inputs.map LineInput.line) (some (setDiscount discount))).map
      fun ln => ⟨ln.amountCents, ln.taxClass, true⟩) (docRates drates registered) false, |x| < 2 ^ 53 := by
  intro x hx
  rw [← saleDocLines_of_products hw hopt hp hs] at hx
  exact hs x (List.mem_append_right _ hx)

theorem taxProducts_of_products :
    ∀ ln ∈ priceLines (inputs.map LineInput.line) (some (setDiscount discount)),
      ∀ d ∈ appliedRates ln.taxClass (docRates drates registered), 2 * |ln.amountCents * d.ppm| < 2 ^ 53 := by
  refine taxProducts_lt (taxClass_inputs inputs _) fun x hx => hp x ?_
  rw [saleProducts, nets_of_products hw hopt hp hs]
  exact List.mem_append_right _ hx

theorem saleDoc_of_products :
    saleDoc (inputs.map saleLine) (discount.map saleDiscount) drates registered =
      priceDoc ((priceLines (inputs.map LineInput.line) (some (setDiscount discount))).map
        fun ln => ⟨ln.amountCents, ln.taxClass, true⟩) (docRates drates registered) false := by
  rw [saleDoc, saleDocLines_of_products hw hopt hp hs]

/-- The app's document of a sale is the server's tax of it. -/
theorem saleDoc_agrees (h : List.Forall₂ TaxComponent.Matches rates drates) (hd : (drates.map (·.code)).Nodup) :
    let doc := saleDoc (inputs.map saleLine) (discount.map saleDiscount) drates registered
    let server := priceLines (inputs.map LineInput.line) (some (setDiscount discount))
    let tax := computeTax (server.map LineRow.taxLine) rates registered false
    doc.lines = server.map (taxDoc (if registered then rates else [])) ∧ doc.subtotalCents = tax.subtotalCents ∧
      doc.taxCents = tax.taxTotalCents ∧ doc.totalCents = tax.totalCents ∧
      ∀ c, codeCents doc.taxes c = tax.code c := by
  dsimp only
  rw [saleDoc_of_products hw hopt hp hs, computeTax_registered]
  exact priceDoc_eq (docRates_match h registered) (nodup_docRates hd registered)
    (taxProducts_of_products hw hopt hp hs) (docSums_of_sums hw hopt hp hs)

theorem saleDoc_total_lt :
    |(saleDoc (inputs.map saleLine) (discount.map saleDiscount) drates registered).totalCents| < 2 ^ 53 := by
  have hsmall := (forall_docSums.1 (docSums_of_sums hw hopt hp hs)).2
  rw [saleDoc_of_products hw hopt hp hs]
  show |addCents (priceDoc _ _ _).subtotalCents (priceDoc _ _ _).taxCents| < 2 ^ 53
  rwa [addCents_eq hsmall]

end

/-- While every product and every sum stays below `2 ^ 53`, the app's sale without tip, deposit or gift card
is the server's: each line's discount, share, net and taxes, and the sale's totals. -/
theorem priceSale_agrees {δ : Type} [LinearOrder δ] {table : List (Rate δ)} {rows : List (RateRow δ)}
    (ht : TablesMatch table rows) (province : Option String) (on : δ) (registered : Bool)
    {inputs : List LineInput} (hw : ∀ inp ∈ inputs, LineInput.Whole inp) (discount : Option DiscountIn)
    {lines : List LineRow} (hl : replaceLines .order inputs (some (setDiscount discount)) = .ok lines)
    (hp : ∀ x ∈ saleProducts (inputs.map saleLine) (discount.map saleDiscount)
      (deviceRatesOn rows province on) registered, x < 2 ^ 53)
    (hs : ∀ x ∈ saleSums (inputs.map saleLine) (discount.map saleDiscount)
      (deviceRatesOn rows province on) registered, |x| < 2 ^ 53) :
    SameSale
      (priceSale (inputs.map saleLine) (discount.map saleDiscount) (deviceRatesOn rows province on)
        registered .none 0 0)
      (saleDoc (inputs.map saleLine) (discount.map saleDiscount) (deviceRatesOn rows province on) registered)
      lines
      (computeTax (lines.map LineRow.taxLine) (ratesOn table province on) registered false) := by
  obtain ⟨hopt, rfl⟩ := replaceLines_order hl
  have hnets := nets_of_products hw hopt hp hs
  have hshares := shares_of_products hw hopt hp hs
  obtain ⟨h1, h2, h3, h4, h5⟩ := saleDoc_agrees hw hopt hp hs (ratesOn_match ht province on)
    (nodup_deviceRatesOn rows province on)
  have hlen : (nets (inputs.map saleLine) (discount.map saleDiscount)).length =
      (inputs.map saleLine).length := by rw [hnets]; simp
  have hslen : (shares (inputs.map saleLine) (discount.map saleDiscount)).length =
      (inputs.map saleLine).length := by rw [hshares]; simp
  constructor
  · show ((inputs.map saleLine).zipIdx.map _).map _ = _
    rw [List.map_map, priceLines, map_zipWith_left LineRow.lessShare (·.discountCents) (·.discountCents)
      (fun a b => rfl) (by simp), List.map_map, List.map_map]
    refine (map_fst_zipIdx SaleLine.off _).trans ?_
    rw [List.map_map]
    exact List.map_congr_left fun inp hi => off_of_products hw hp hi
  · show ((inputs.map saleLine).zipIdx.map _).map _ = _
    rw [List.map_map, priceLines, map_zipWith_right LineRow.lessShare (·.saleDiscountCents) id
      (fun a b => rfl) (by simp), List.map_id, ← hshares]
    exact map_getD_zipIdx 0 hslen
  · show ((inputs.map saleLine).zipIdx.map _).map _ = _
    rw [List.map_map, ← hnets]
    exact map_getD_zipIdx 0 hlen
  · rw [h1]
    show _ = ((List.map LineRow.taxLine _).map _).map _
    rw [List.map_map, List.map_map, List.map_map]
    rfl
  · show ((inputs.map saleLine).zipIdx.map _).map _ = _
    rw [List.map_map]
    refine (map_getD_zipIdx 0 (by rw [h1]; simp)).trans ?_
    rw [h1]
    show _ = ((List.map LineRow.taxLine _).map _).map _
    rw [List.map_map, List.map_map, List.map_map]
    rfl
  · exact h2
  · exact h5
  · exact h3
  · show addCents (saleDoc _ _ _ _).totalCents 0 = _
    have htotal := saleDoc_total_lt hw hopt hp hs
    rw [addCents_eq (by rwa [Int.add_zero]), Int.add_zero]
    exact h4

/-- Three lines in British Columbia, one at 15% off, and 333 cents off the sale. -/
def barberSale : List LineInput :=
  [⟨3, 1050, .standard, false, some ⟨.percent, 15, by decide, by decide⟩, by norm_num, by decide⟩,
   ⟨1, 4999, .federalOnly, false, none, one_quantity_pos, by decide⟩,
   ⟨2, 1250, .exempt, false, none, by norm_num, by decide⟩]

def barberDiscount : Option DiscountIn := some ⟨.amount, 333, by decide, by decide⟩

theorem barberSale_agrees :
    SameSale
      (priceSale (barberSale.map saleLine) (barberDiscount.map saleDiscount)
        (deviceRatesOn taxRateTable (some "BC") (day 2026 7 1)) true .none 0 0)
      (saleDoc (barberSale.map saleLine) (barberDiscount.map saleDiscount)
        (deviceRatesOn taxRateTable (some "BC") (day 2026 7 1)) true)
      (priceLines (barberSale.map LineInput.line) (some (setDiscount barberDiscount)))
      (computeTax
        ((priceLines (barberSale.map LineInput.line) (some (setDiscount barberDiscount))).map LineRow.taxLine)
        (ratesOn rateTable (some "BC") (day 2026 7 1)) true false) := by
  refine priceSale_agrees tables_match (some "BC") (day 2026 7 1) true ?_ barberDiscount rfl ?_ ?_
  · simp only [barberSale, List.forall_mem_cons, List.not_mem_nil, false_imp_iff, implies_true, and_true]
    exact ⟨⟨3, rfl⟩, ⟨1, rfl⟩, ⟨2, rfl⟩⟩
  · decide +kernel
  · decide +kernel

/-- Two lines whose prices are near `2 ^ 53` each. -/
def hugeSale : List LineInput :=
  [⟨4194303, 2147483647, .standard, false, none, by norm_num, by decide⟩,
   ⟨4194303, 2147483646, .standard, false, none, by norm_num, by decide⟩]

/-- Their products are small enough, but their sum is not: the device is a cent off. -/
theorem hugeSale_differs :
    (∀ inp ∈ hugeSale, LineInput.Whole inp) ∧
      replaceLines .order hugeSale (some (setDiscount none)) =
        .ok (priceLines (hugeSale.map LineInput.line) (some (setDiscount none))) ∧
      (∀ x ∈ saleProducts (hugeSale.map saleLine) none (deviceRatesOn taxRateTable (some "BC") (day 2026 7 1)) false,
        x < 2 ^ 53) ∧
      ¬SameSale
        (priceSale (hugeSale.map saleLine) none (deviceRatesOn taxRateTable (some "BC") (day 2026 7 1)) false .none 0 0)
        (saleDoc (hugeSale.map saleLine) none (deviceRatesOn taxRateTable (some "BC") (day 2026 7 1)) false)
        (priceLines (hugeSale.map LineInput.line) (some (setDiscount none)))
        (computeTax ((priceLines (hugeSale.map LineInput.line) (some (setDiscount none))).map LineRow.taxLine)
          (ratesOn rateTable (some "BC") (day 2026 7 1)) false false) := by
  refine ⟨?_, rfl, by decide +kernel, fun h => absurd h.subtotal (by decide +kernel)⟩
  simp only [hugeSale, List.forall_mem_cons, List.not_mem_nil, false_imp_iff, implies_true, and_true]
  exact ⟨⟨4194303, rfl⟩, ⟨4194303, rfl⟩⟩

end ClientBridge.Pos
