import ClientBridge.Library.LargestRemainder
import ClientBridge.Billing.Pricing

/-!
# Sharing a discount loses no cent

`allocate` deals every weight its part rounded down and at most one cent more, and the cent only
where rounding took something off (`allocate_part`).  So a part is the floor or the ceiling of
the exact one, no part of a total below the whole is above its weight (`allocate_le`), and an
excluded line, whose weight is zero, takes nothing.
-/

namespace ClientBridge

open Apportion

/-! ## `allocate`, place by place -/

theorem sorted_remainderOrder (total : Int) (weights : List Int) :
    (remainderOrder total weights).Pairwise (Before (weights.map fun w => total * w % weights.sum)) := by
  have htotal : Std.Total fun i j : Nat => total * weights.getD j 0 % weights.sum < total * weights.getD i 0 % weights.sum ∨
      (total * weights.getD i 0 % weights.sum = total * weights.getD j 0 % weights.sum ∧ i ≤ j) := ⟨fun i j => by omega⟩
  have htrans : IsTrans Nat fun i j => total * weights.getD j 0 % weights.sum < total * weights.getD i 0 % weights.sum ∨
      (total * weights.getD i 0 % weights.sum = total * weights.getD j 0 % weights.sum ∧ i ≤ j) :=
    ⟨fun i j k => by omega⟩
  have hnodup : (remainderOrder total weights).Nodup :=
    (List.perm_insertionSort _ _).nodup_iff.2 List.nodup_range
  have hsorted := List.pairwise_insertionSort (fun i j : Nat =>
    total * weights.getD j 0 % weights.sum < total * weights.getD i 0 % weights.sum ∨
      (total * weights.getD i 0 % weights.sum = total * weights.getD j 0 % weights.sum ∧ i ≤ j)) (List.range weights.length)
  refine (hsorted.and hnodup).imp fun {i j} h => ?_
  have hg : ∀ k, (weights.map fun w => total * w % weights.sum).getD k 0 = total * weights.getD k 0 % weights.sum := by
    intro k
    have := List.getD_map (l := weights) (d := 0) (n := k) fun w => total * w % weights.sum
    simpa using this
  simp only [Before, hg]
  omega

/-- Units left over by rounding down. -/
def leftOver (total : Int) (weights : List Int) : Nat := (total - (floors total weights.sum weights).sum).toNat

theorem allocate_eq_deal {total : Int} {weights : List Int} (h : ¬(total = 0 ∨ weights.sum ≤ 0)) :
    allocate total weights =
      deal (fun w => total * w / weights.sum) (fun w => total * w % weights.sum) (leftOver total weights) [] weights := by
  simp only [allocate, if_neg h]
  exact bumpAll_eq_deal _ _ _ weights (List.perm_insertionSort _ _) (sorted_remainderOrder total weights)

/-- No more units are left than places where rounding took something off. -/
theorem leftOver_le {total : Int} {weights : List Int} (hw : 0 < weights.sum) :
    leftOver total weights ≤ (weights.map fun w => total * w % weights.sum).countP fun k => decide (0 < k) := by
  have hm := mul_sum_floors total weights.sum weights
  have hle := sum_floors_le hw rfl total
  have hcount : (weights.map fun w => total * w % weights.sum).sum ≤
      weights.sum * (weights.map fun w => total * w % weights.sum).countP fun k => decide (0 < k) := by
    refine sum_le_countP fun k hk => ?_
    obtain ⟨w, -, rfl⟩ := List.mem_map.1 hk
    exact (Int.emod_lt_of_pos _ hw).le
  have hmul : weights.sum * (total - (floors total weights.sum weights).sum) ≤
      weights.sum * (weights.map fun w => total * w % weights.sum).countP fun k => decide (0 < k) := by
    rw [Int.mul_sub, Int.mul_comm _ total]
    omega
  have := Int.le_of_mul_le_mul_left hmul hw
  rw [leftOver]
  omega

section
variable {total : Int} {weights : List Int} {i : Nat} {w part : Int}

/-- A part is rounded down, or one more where that took something off. -/
theorem allocate_part (hw : weights[i]? = some w) (hp : (allocate total weights)[i]? = some part) (hsum : 0 < weights.sum) :
    part = total * w / weights.sum ∨ part = total * w / weights.sum + 1 ∧ 0 < total * w % weights.sum := by
  by_cases h : total = 0 ∨ weights.sum ≤ 0
  · have ht : total = 0 := h.resolve_right (by omega)
    have hz : part = 0 := by
      rw [allocate, if_pos h, List.getElem?_map] at hp
      obtain ⟨-, -, rfl⟩ := Option.map_eq_some_iff.1 hp
      rfl
    exact .inl (by rw [hz, ht, Int.zero_mul, Int.zero_ediv])
  · rw [allocate_eq_deal h, getElem?_deal, hw, Option.map_some, List.nil_append] at hp
    have hsplit : weights.take i ++ w :: weights.drop (i + 1) = weights := by
      obtain ⟨hlt, rfl⟩ := List.getElem?_eq_some_iff.1 hw
      rw [List.getElem_cons_drop, List.take_append_drop]
    obtain hz | hpos := (Int.emod_nonneg (total * w) hsum.ne').eq_or_lt
    · have hnone : topUp (fun w => total * w % weights.sum) (leftOver total weights) (weights.take i) w
          (weights.drop (i + 1)) = 0 := topUp_zero hz.symm (by rw [hsplit]; exact leftOver_le hsum)
      rw [hnone, Int.add_zero] at hp
      exact .inl (Option.some.inj hp).symm
    · have hp := Option.some.inj hp
      rw [topUp] at hp
      split at hp
      · exact .inr ⟨hp.symm, hpos⟩
      · exact .inl (by omega)

/-- A share of no more than the whole is at most its weight, and no share of one is above it. -/
theorem allocate_le (hw : weights[i]? = some w) (hp : (allocate total weights)[i]? = some part)
    (h0 : 0 ≤ w) (hle : total ≤ weights.sum) (hsum : 0 < weights.sum) : part ≤ w := by
  have hmul : total * w ≤ w * weights.sum := by
    rw [Int.mul_comm]
    exact Int.mul_le_mul_of_nonneg_left hle h0
  have hfloor : total * w / weights.sum ≤ w := by
    have := Int.ediv_le_ediv hsum hmul
    rwa [Int.mul_ediv_cancel _ hsum.ne'] at this
  obtain rfl | ⟨rfl, hpos⟩ := allocate_part hw hp hsum
  · exact hfloor
  · have hd := Int.mul_ediv_add_emod (total * w) weights.sum
    by_contra hlt
    have heq : total * w / weights.sum = w := by omega
    rw [heq, Int.mul_comm weights.sum] at hd
    omega

/-- A part is the floor or the ceiling of the exact one. -/
theorem allocate_floor_or_ceil (hw : weights[i]? = some w) (hp : (allocate total weights)[i]? = some part)
    (hsum : 0 < weights.sum) :
    part = ⌊(total * w : ℚ) / weights.sum⌋ ∨ part = ⌈(total * w : ℚ) / weights.sum⌉ := by
  have hpos : (0 : ℚ) < weights.sum := by exact_mod_cast hsum
  have hd : ((total * w : Int) : ℚ) = weights.sum * (total * w / weights.sum : Int) + (total * w % weights.sum : Int) := by
    exact_mod_cast (Int.mul_ediv_add_emod (total * w) weights.sum).symm
  have hlt : ((total * w % weights.sum : Int) : ℚ) < weights.sum := by exact_mod_cast Int.emod_lt_of_pos _ hsum
  rw [Int.cast_mul] at hd
  obtain rfl | ⟨rfl, hr⟩ := allocate_part hw hp hsum
  · have hr : (0 : ℚ) ≤ (total * w % weights.sum : Int) := by exact_mod_cast Int.emod_nonneg _ hsum.ne'
    refine .inl (Int.floor_eq_iff.2 ⟨?_, ?_⟩).symm
    · rw [le_div_iff₀ hpos]
      nlinarith
    · rw [div_lt_iff₀ hpos]
      nlinarith
  · have hr : (0 : ℚ) < (total * w % weights.sum : Int) := by exact_mod_cast hr
    refine .inr (Int.ceil_eq_iff.2 ⟨?_, ?_⟩).symm
    · rw [lt_div_iff₀ hpos, Int.cast_add, Int.cast_one]
      nlinarith
    · rw [div_le_iff₀ hpos, Int.cast_add, Int.cast_one]
      nlinarith

end

/-! ## Pricing a document's lines -/

/-- What the document's discount is shared over, line by line. -/
def lineBases (lines : List LineRow) : List Int := (lines.map LineRow.lessDiscount).map LineRow.base

def discountTotal (lines : List LineRow) : Int :=
  ((lines.filter LineRow.included).map fun ln => ln.discountCents + ln.saleDiscountCents).sum

/-- A quantity and a price a line may have. -/
def LineRow.Sellable (ln : LineRow) : Prop := 0 < ln.quantity ∧ 0 ≤ ln.unitAmountCents

theorem LineRow.Sellable.gross_nonneg {ln : LineRow} (h : ln.Sellable) : 0 ≤ ln.grossCents := by
  have hu : (0 : ℚ) ≤ ln.unitAmountCents := by exact_mod_cast h.2
  have hv : 0 ≤ ln.quantity * ln.unitAmountCents := mul_nonneg h.1.le hu
  rw [LineRow.grossCents, Tax.cents, if_pos hv, abs_of_nonneg hv, Int.floor_nonneg]
  linarith

theorem LineRow.Sellable.base {ln : LineRow} (h : ln.Sellable) :
    0 ≤ ln.lessDiscount.base ∧ ln.lessDiscount.base ≤ ln.grossCents - ln.lessDiscount.discountCents ∧
      (ln.included = false → ln.lessDiscount.base = 0) := by
  have hle : ln.lessDiscount.discountCents ≤ ln.grossCents :=
    discountOff_le h.gross_nonneg ln.discount.kind ln.discount.value
  have hb : ln.lessDiscount.base = if ln.included then ln.grossCents - ln.lessDiscount.discountCents else 0 := rfl
  rw [hb]
  cases ln.included with
  | true => simp; omega
  | false => simp; omega

section
variable {lines : List LineRow} {document : Option Discounted}

/-- A priced line is one of the lines, less its discount and its share. -/
theorem mem_priceLines {priced : LineRow} (h : priced ∈ priceLines lines document) :
    ∃ (i : Nat) (ln : LineRow) (share : Int), lines[i]? = some ln ∧ (lineBases lines)[i]? = some ln.lessDiscount.base ∧
      (allocate (documentOff document (lineBases lines)) (lineBases lines))[i]? = some share ∧
      priced = ln.lessDiscount.lessShare share := by
  obtain ⟨i, hi⟩ := List.mem_iff_getElem?.1 h
  rw [priceLines, List.getElem?_zipWith] at hi
  cases hl : lines[i]? with
  | none => simp [hl] at hi
  | some ln =>
    have hbase : (lineBases lines)[i]? = some ln.lessDiscount.base := by simp [lineBases, hl]
    cases hs : (allocate (documentOff document (lineBases lines)) (lineBases lines))[i]? with
    | none =>
      rw [List.getElem?_eq_none_iff, length_allocate, ← List.getElem?_eq_none_iff, hbase] at hs
      cases hs
    | some share =>
      refine ⟨i, ln, share, hl, hbase, hs, ?_⟩
      have hs' : (allocate (documentOff document ((lines.map LineRow.lessDiscount).map LineRow.base))
          ((lines.map LineRow.lessDiscount).map LineRow.base))[i]? = some share := hs
      simp only [List.getElem?_map, hl, hs', Option.map_some] at hi
      exact (Option.some.inj hi).symm

theorem map_base_priceLines : (priceLines lines document).map LineRow.base = lineBases lines := by
  rw [priceLines, map_zipWith_left LineRow.lessShare LineRow.base LineRow.base (fun a b => rfl) (by simp)]
  rfl

theorem map_share_priceLines :
    (priceLines lines document).map (·.saleDiscountCents) = allocate (documentOff document (lineBases lines)) (lineBases lines) := by
  rw [priceLines, map_zipWith_right LineRow.lessShare (·.saleDiscountCents) id (fun a b => rfl) (by simp), List.map_id]
  rfl

theorem lineBases_nonneg (hs : ∀ ln ∈ lines, ln.Sellable) : ∀ b ∈ lineBases lines, 0 ≤ b := by
  intro b hb
  obtain ⟨l, hl, rfl⟩ := List.mem_map.1 hb
  obtain ⟨ln, hln, rfl⟩ := List.mem_map.1 hl
  exact (hs ln hln).base.1

theorem documentOff_bounds (document : Option Discounted) {bases : List Int} (h : 0 ≤ bases.sum) :
    0 ≤ documentOff document bases ∧ documentOff document bases ≤ bases.sum := by
  cases document with
  | none => exact ⟨le_rfl, h⟩
  | some d => exact ⟨discountOff_nonneg _ _ _, discountOff_le h _ _⟩

/-- The shares add up to the document's discount, also when there is nothing to share it over. -/
theorem sum_shares (hs : ∀ ln ∈ lines, ln.Sellable) :
    ((priceLines lines document).map (·.saleDiscountCents)).sum = documentOff document (lineBases lines) := by
  rw [map_share_priceLines]
  have hsum := List.sum_nonneg (lineBases_nonneg hs)
  obtain hpos | hz := hsum.lt_or_eq
  · exact sum_allocate _ hpos
  · have hoff := documentOff_bounds document hsum
    have h0 : documentOff document (lineBases lines) = 0 := by omega
    simp [allocate, h0]

/-- The share of a line, against its base. -/
theorem share_priced (hs : ∀ ln ∈ lines, ln.Sellable) {priced : LineRow} (h : priced ∈ priceLines lines document) :
    0 ≤ priced.saleDiscountCents ∧ priced.saleDiscountCents ≤ priced.base ∧
      (priced.saleDiscountCents = ⌊(documentOff document (lineBases lines) * priced.base : ℚ) / (lineBases lines).sum⌋ ∨
        priced.saleDiscountCents = ⌈(documentOff document (lineBases lines) * priced.base : ℚ) / (lineBases lines).sum⌉) := by
  obtain ⟨i, ln, share, hi, hb, hp, rfl⟩ := mem_priceLines h
  have hnonneg := lineBases_nonneg hs
  have hsum := List.sum_nonneg hnonneg
  have hoff := documentOff_bounds document hsum
  have hbase := hnonneg _ (List.mem_of_getElem? hb)
  show 0 ≤ share ∧ share ≤ ln.lessDiscount.base ∧ (share = _ ∨ share = _)
  refine ⟨allocate_nonneg hoff.1 hnonneg _ (List.mem_of_getElem? hp), ?_⟩
  obtain hpos | hz := hsum.lt_or_eq
  · exact ⟨allocate_le hb hp hbase hoff.2 hpos, allocate_floor_or_ceil hb hp hpos⟩
  · have h0 : documentOff document (lineBases lines) = 0 := by omega
    rw [allocate, if_pos (.inl h0), List.getElem?_map] at hp
    obtain ⟨-, -, rfl⟩ := Option.map_eq_some_iff.1 hp
    exact ⟨hbase, .inl (by simp [h0])⟩

theorem amount_priced {priced : LineRow} (h : priced ∈ priceLines lines document) :
    priced.amountCents = priced.grossCents - priced.discountCents - priced.saleDiscountCents := by
  obtain ⟨-, -, -, -, -, -, rfl⟩ := mem_priceLines h
  rfl

theorem base_priced {priced : LineRow} (h : priced ∈ priceLines lines document) :
    priced.base = if priced.included then priced.amountCents + priced.saleDiscountCents else 0 := by
  rw [LineRow.base, amount_priced h, Int.sub_add_cancel]

theorem amount_bounds (hs : ∀ ln ∈ lines, ln.Sellable) {priced : LineRow} (h : priced ∈ priceLines lines document) :
    0 ≤ priced.amountCents ∧ priced.amountCents ≤ priced.grossCents := by
  have hshare := share_priced hs h
  obtain ⟨i, ln, share, hi, -, -, rfl⟩ := mem_priceLines h
  have hln := hs ln (List.mem_of_getElem? hi)
  have hd : 0 ≤ ln.lessDiscount.discountCents := discountOff_nonneg ln.grossCents ln.discount.kind ln.discount.value
  have hb : share ≤ ln.lessDiscount.base := hshare.2.1
  have h0 : 0 ≤ share := hshare.1
  have hle := hln.base.2.1
  show 0 ≤ ln.grossCents - ln.lessDiscount.discountCents - share ∧
    ln.grossCents - ln.lessDiscount.discountCents - share ≤ ln.grossCents
  omega

theorem share_excluded (hs : ∀ ln ∈ lines, ln.Sellable) {priced : LineRow} (h : priced ∈ priceLines lines document)
    (hi : priced.included = false) : priced.saleDiscountCents = 0 := by
  have hshare := share_priced hs h
  rw [base_priced h, hi, if_neg Bool.false_ne_true] at hshare
  omega

/-- What the included lines add up to, from what every line adds. -/
theorem sum_included {rows : List LineRow} {f g : LineRow → Int}
    (h : ∀ r ∈ rows, g r = if r.included then f r else 0) :
    ((rows.filter LineRow.included).map f).sum = (rows.map g).sum := by
  induction rows with
  | nil => rfl
  | cons r rows ih =>
    have ih := ih fun r' hr' => h r' (List.mem_cons_of_mem r hr')
    have hr := h r List.mem_cons_self
    cases hi : r.included with
    | true =>
      rw [hi, if_pos rfl] at hr
      rw [List.filter_cons_of_pos hi, List.map_cons, List.map_cons, List.sum_cons, List.sum_cons, ih, hr]
    | false =>
      rw [hi, if_neg Bool.false_ne_true] at hr
      rw [List.filter_cons_of_neg (by simp [hi]), List.map_cons, List.sum_cons, ih, hr, Int.zero_add]

end

/-- Discounts neither make nor lose a cent. -/
theorem price_lines_exact {lines : List LineRow} {document : Option Discounted} (hs : ∀ ln ∈ lines, ln.Sellable) :
    let priced := priceLines lines document
    let off := documentOff document (priced.map LineRow.base)
    (∀ ln ∈ priced, 0 ≤ ln.amountCents ∧ ln.amountCents ≤ ln.grossCents ∧
      ln.amountCents = ln.grossCents - ln.discountCents - ln.saleDiscountCents ∧
      (ln.included = false → ln.saleDiscountCents = 0) ∧
      (ln.saleDiscountCents = ⌊(off * ln.base : ℚ) / (priced.map LineRow.base).sum⌋ ∨
        ln.saleDiscountCents = ⌈(off * ln.base : ℚ) / (priced.map LineRow.base).sum⌉)) ∧
    (priced.map (·.saleDiscountCents)).sum = off ∧ 0 ≤ off ∧ off ≤ (priced.map LineRow.base).sum ∧
    ((priced.filter LineRow.included).map (·.amountCents)).sum = (priced.map LineRow.base).sum - off ∧
    discountTotal priced =
      ((priced.filter LineRow.included).map LineRow.grossCents).sum - ((priced.filter LineRow.included).map (·.amountCents)).sum ∧
    ∀ (total : Int) (weights : List Int), 0 ≤ total → (∀ w ∈ weights, 0 ≤ w) → 0 < weights.sum →
      (allocate total weights).sum = total := by
  intro priced off
  have hoff : off = documentOff document (lineBases lines) := by simp only [off, priced, map_base_priceLines]
  have hbases : priced.map LineRow.base = lineBases lines := map_base_priceLines
  have hbounds := documentOff_bounds document (List.sum_nonneg (lineBases_nonneg hs))
  have hshares : (priced.map (·.saleDiscountCents)).sum = documentOff document (lineBases lines) := sum_shares hs
  rw [hbases, hoff]
  refine ⟨fun ln hm => ?_, hshares, hbounds.1, hbounds.2, ?_, ?_, fun total weights _ _ hw => sum_allocate total hw⟩
  · have hamount := amount_bounds hs hm
    exact ⟨hamount.1, hamount.2, amount_priced hm, share_excluded hs hm, (share_priced hs hm).2.2⟩
  · have hbase : ((priced.filter LineRow.included).map fun ln => ln.amountCents + ln.saleDiscountCents).sum =
        (priced.map LineRow.base).sum := sum_included fun ln hm => base_priced hm
    have hshare : ((priced.filter LineRow.included).map (·.saleDiscountCents)).sum = (priced.map (·.saleDiscountCents)).sum := by
      refine sum_included fun ln hm => ?_
      cases hi : ln.included with
      | true => rfl
      | false => exact share_excluded hs hm hi
    rw [List.sum_map_add, hbases] at hbase
    rw [← hshares, ← hshare, ← hbase, Int.add_sub_cancel]
  · have hgross : (priced.filter LineRow.included).map LineRow.grossCents =
        (priced.filter LineRow.included).map fun ln => ln.discountCents + ln.saleDiscountCents + ln.amountCents := by
      refine List.map_congr_left fun ln hm => ?_
      have := amount_priced (List.mem_of_mem_filter hm)
      omega
    rw [hgross, List.sum_map_add, discountTotal, Int.add_sub_cancel]

/-- Three lines, one of them an add-on left out, and a cent that has to go somewhere. -/
theorem third_off_exact :
    let line : LineRow := { quantity := 1, unitAmountCents := 100, taxClass := .standard, discount := ⟨none, none⟩ }
    let priced := priceLines [line, { line with optional := true }, line] (some ⟨some .amount, some 33⟩)
    (priced.map (·.saleDiscountCents)).sum = documentOff (some ⟨some .amount, some 33⟩) (priced.map LineRow.base) := by
  intro line priced
  have hs : ∀ ln ∈ [line, { line with optional := true }, line], ln.Sellable := by
    simp [line, LineRow.Sellable]
  exact (price_lines_exact hs).2.1

end ClientBridge
