import ClientBridge.Billing.Shares
import ClientBridge.Billing.DocumentRuns
import ClientBridge.Tax.FixedSplits

/-!
# An estimate quoted, accepted and billed

The public page quotes an estimate with add-ons ticked (`PublicEstimateService.context`), the
client accepts it with the same ids (`accept`, a `BillCommand`) and an admin makes a draft invoice
of what was accepted (`convert_estimate`).  The first two price the whole list, the third only
the lines that count; lines that do not count have no weight in the document's discount, so
leaving them out moves no cent (`priceLines_filter`).
-/

namespace ClientBridge

open Apportion

/-! ## The public page -/

/-- What came of an estimate: the invoice made of it and the visit booked for it. -/
structure EstimateLinks where
  convertedInvoiceId : Option Id
  bookedVisitId : Option Id

structure PublicEstimateLine where
  id : Id
  optional : Bool
  selected : Bool
  amountCents : Int
  discountCents : Int
  taxCents : Int
  taxByCode : List (TaxCode × Int)
  deriving DecidableEq

structure PublicEstimate where
  status : String
  subtotalCents : Int
  taxTotalCents : Int
  totalCents : Int
  discountCents : Int
  lines : List PublicEstimateLine
  deriving DecidableEq

/-- A quote still open is priced live; anything else shows the tax stored on its lines, split at
the rates of the day it was fixed. -/
def estimateTax (settings : TaxSettings) (fixedRates : List TaxComponent) (doc : BillDocument) (links : EstimateLinks)
    (expired : Bool) (rows : List LineRow) : TaxResult :=
  if doc.estimateStatus expired = "sent" ∧ links.convertedInvoiceId = none then
    computeTax (rows.map LineRow.taxLine) settings.rates settings.registered false
  else splitFixed (rows.map fun r => (r.taxLine, r.taxAmountCents)) fixedRates

def publicLine (l : BillLine) (tax : LineTax) : PublicEstimateLine where
  id := l.id
  optional := l.row.optional
  selected := l.row.selected
  amountCents := l.row.amountCents + l.row.saleDiscountCents
  discountCents := l.row.discountCents
  taxCents := tax.taxCents
  taxByCode := tax.byJurisdiction

/-- The page of an estimate with these lines (`_context`). -/
def publicEstimate (doc : BillDocument) (expired : Bool) (lines : List BillLine) (result : TaxResult) : PublicEstimate :=
  let totals := includedTotals (lineRows lines) result
  { status := doc.estimateStatus expired
    subtotalCents := totals.subtotalCents
    taxTotalCents := totals.taxTotalCents
    totalCents := totals.totalCents
    discountCents := (((lineRows lines).filter LineRow.included).map (·.saleDiscountCents)).sum
    lines := List.zipWith publicLine lines result.lines }

/-- A detached copy of the lines with the add-ons ticked, and its tax. -/
def quotedLines (settings : TaxSettings) (fixedRates : List TaxComponent) (doc : BillDocument) (links : EstimateLinks)
    (expired : Bool) (lineIds : List Id) : Except String (List BillLine × TaxResult) :=
  match doc.answerable expired with
  | .error e => .error e
  | .ok () =>
    match tickAddons doc.row doc.lines lineIds with
    | .error e => .error e
    | .ok ticked => .ok (ticked, estimateTax settings fixedRates doc links expired (lineRows ticked))

/-- The estimate as sent, or quoted with `lineIds` ticked (`PublicEstimateService.context`). -/
def estimateContext (settings : TaxSettings) (fixedRates : List TaxComponent) (doc : BillDocument) (links : EstimateLinks)
    (expired : Bool) (lineIds : Option (List Id)) : Except String PublicEstimate :=
  match lineIds with
  | none => .ok (publicEstimate doc expired doc.lines (estimateTax settings fixedRates doc links expired (lineRows doc.lines)))
  | some lineIds =>
    (quotedLines settings fixedRates doc links expired lineIds).map fun x => publicEstimate doc expired x.1 x.2

/-- The estimate as the client's acceptance leaves it, `totalCents` being the total they were shown. -/
def acceptedEstimate (settings : TaxSettings) (doc : BillDocument) (expired : Bool) (lineIds : List Id)
    (totalCents : Option Int) : Except String BillDocument :=
  match BillCommand.run settings doc (.accept expired lineIds totalCents) with
  | .error e => .error e
  | .ok w =>
    match w.flush doc with
    | some accepted => .ok accepted
    | none => .error "stale row"

/-! ## The draft invoice -/

/-- The discount a row's columns hold (`discount_of`). -/
def discountOf (source : Discounted) : Except String (Option DiscountIn) :=
  match source.kind, source.value with
  | some kind, some value =>
    if value = 0 then .ok none
    else if h : 0 < value ∧ (kind = .percent → value ≤ 100) then .ok (some ⟨kind, value, h.1, h.2⟩)
    else .error "a percent discount is at most 100"
  | _, _ => .ok none

/-- A line as a request of its own; a quantity was a float when it came in and reads back as it. -/
def LineRow.input (ln : LineRow) : Except String LineInput :=
  match discountOf ln.discount with
  | .error e => .error e
  | .ok discount =>
    if h : 0 < ln.quantity ∧ 0 ≤ ln.unitAmountCents then
      .ok
        { quantity := ln.quantity
          unitAmountCents := ln.unitAmountCents
          taxClass := ln.taxClass
          discount := discount
          quantity_pos := h.1
          unit_nonneg := h.2 }
    else .error "input should be greater than 0"

/-- The requests for the lines that count, each under a new id. -/
def lineInputs (newId : Id → Id) : List BillLine → Except String (List (Id × LineInput))
  | [] => .ok []
  | l :: lines =>
    match l.row.input, lineInputs newId lines with
    | .ok inp, .ok inputs => .ok ((newId l.id, inp) :: inputs)
    | .error e, _ => .error e
    | _, .error e => .error e

/-- The draft invoice made of an estimate; add-ons the client did not pick are dropped. -/
def convertEstimate (settings : TaxSettings) (doc : BillDocument) (links : EstimateLinks) (expired clientActive : Bool)
    (newId : Id → Id) : Except String BillDocument :=
  if doc.estimateStatus expired ∉ ["sent", "accepted"] then .error "only a sent or accepted estimate can be converted"
  else if !clientActive then .error "restore this client before starting new work"
  else if links.convertedInvoiceId.isSome then .error "this estimate was already converted"
  else if links.bookedVisitId.isSome then
    .error "the estimate's products are billed on its booked visit; cancel the visit to convert the estimate"
  else
    match lineInputs newId (doc.lines.filter fun l => l.row.included) with
    | .error e => .error e
    | .ok inputs =>
      let row : BillRow := { status := .draft, discount := doc.row.discount }
      match newLines .invoice inputs (some row.discount) with
      | .error e => .error e
      | .ok lines =>
        let (row, lines) := retotal settings row lines
        .ok ⟨.invoice, row, lines⟩

/-! ## Leaving out lines that do not count -/

theorem filter_zip {α β : Type} (p : α → Bool) (xs : List α) (ys : List β) (h : ys.length = xs.length) :
    (xs.zip ys).filter (fun x => p x.1) = (xs.filter p).zip (((xs.zip ys).filter fun x => p x.1).map (·.2)) := by
  have hfst : ((xs.zip ys).filter fun x => p x.1).map (·.1) = xs.filter p := by
    have := List.filter_map (f := fun x : α × β => x.1) (p := p) (l := xs.zip ys)
    rw [List.map_fst_zip h.ge] at this
    exact this.symm
  exact List.zip_of_prod hfst rfl

/-- Weights of zero take no part in a split, wherever they stand. -/
theorem allocate_filter {α : Type} {f : α → Int} {p : α → Bool} (hf : ∀ x, p x = false → f x = 0) (total : Int)
    (xs : List α) :
    ((xs.zip (allocate total (xs.map f))).filter fun x => p x.1).map (·.2) = allocate total ((xs.filter p).map f) := by
  have hsum : ∀ g : Int → Int, g 0 = 0 → (((xs.filter p).map f).map g).sum = ((xs.map f).map g).sum := by
    intro g hg
    induction xs with
    | nil => rfl
    | cons x xs ih =>
      cases hp : p x with
      | true => rw [List.filter_cons_of_pos hp]; simp only [List.map_cons, List.sum_cons, ih]
      | false =>
        rw [List.filter_cons_of_neg (by simp [hp]), ih]
        simp [hf x hp, hg]
  have hw : ((xs.filter p).map f).sum = (xs.map f).sum := by
    have := hsum id rfl
    rwa [List.map_id, List.map_id] at this
  by_cases h : total = 0 ∨ (xs.map f).sum ≤ 0
  · rw [allocate, allocate, if_pos h, if_pos (by rwa [hw])]
    clear hsum hw h
    induction xs with
    | nil => rfl
    | cons x xs ih =>
      cases hp : p x with
      | true => simpa [hp] using ih
      | false => simpa [hp] using ih
  · have hpos : 0 < (xs.map f).sum := by omega
    have hleft : leftOver total ((xs.filter p).map f) = leftOver total (xs.map f) := by
      rw [leftOver, leftOver, floors, floors, hw, hsum _ (by simp)]
    rw [allocate_eq_deal h, allocate_eq_deal (by rwa [hw]), hw, hleft]
    exact deal_filter (fun x hx => by simp [hf x hx]) (fun w => Int.emod_nonneg _ hpos.ne') [] xs (leftOver_le hpos)

theorem base_excluded (r : LineRow) (h : r.included = false) : r.lessDiscount.base = 0 :=
  if_neg (by rw [show r.lessDiscount.included = r.included from rfl, h]; exact Bool.false_ne_true)

theorem sum_bases_filter (rows : List LineRow) :
    ((rows.filter LineRow.included).map fun r => r.lessDiscount.base).sum = (rows.map fun r => r.lessDiscount.base).sum := by
  refine sum_included fun r _ => ?_
  cases hi : r.included with
  | true => rfl
  | false => exact base_excluded r hi

/-- Pricing a document and dropping what does not count is pricing what counts. -/
theorem priceLines_filter (rows : List LineRow) (d : Option Discounted) :
    (priceLines rows d).filter LineRow.included = priceLines (rows.filter LineRow.included) d := by
  have hoff : documentOff d ((rows.filter LineRow.included).map fun r => r.lessDiscount.base) =
      documentOff d (rows.map fun r => r.lessDiscount.base) := by
    cases d with
    | none => rfl
    | some d => rw [documentOff, documentOff, sum_bases_filter]
  have hshares : ((rows.zip (documentShares rows d)).filter fun x => x.1.included).map (·.2) =
      documentShares (rows.filter LineRow.included) d := by
    rw [documentShares, documentShares, allocate_filter base_excluded, hoff]
  rw [priceLines_eq, priceLines_eq, ← hshares, ← List.map_uncurry_zip_eq_zipWith, ← List.map_uncurry_zip_eq_zipWith,
    List.filter_map, ← filter_zip LineRow.included rows _ (length_documentShares rows d)]
  rfl

/-! ## What a document comes to -/

structure LineTerms where
  amountCents : Int
  discountCents : Int
  saleDiscountCents : Int
  taxCents : Int
  deriving DecidableEq, Repr

/-- A document's totals, and each of the lines that count. -/
structure PricedTerms where
  subtotalCents : Int
  taxTotalCents : Int
  totalCents : Int
  lines : List LineTerms
  deriving DecidableEq, Repr

/-- What is stored of a document. -/
def BillDocument.pricedTerms (doc : BillDocument) : PricedTerms where
  subtotalCents := doc.row.subtotalCents
  taxTotalCents := doc.row.taxTotalCents
  totalCents := doc.row.totalCents
  lines := ((lineRows doc.lines).filter LineRow.included).map fun r =>
    ⟨r.amountCents, r.discountCents, r.saleDiscountCents, r.taxAmountCents⟩

/-- What a quote says: the page's totals, and each counted line as it was priced for the page. -/
def quotedTerms (page : PublicEstimate) (rows : List LineRow) (result : TaxResult) : PricedTerms where
  subtotalCents := page.subtotalCents
  taxTotalCents := page.taxTotalCents
  totalCents := page.totalCents
  lines := ((rows.zip result.lines).filter fun x => x.1.included).map fun x =>
    ⟨x.1.amountCents, x.1.discountCents, x.1.saleDiscountCents, x.2.taxCents⟩

/-- Rows with a tax worked out for each. -/
def termsBy (tax : LineRow → LineTax) (rows : List LineRow) : PricedTerms :=
  let counted := rows.filter LineRow.included
  let totals := Tax.total (counted.map tax)
  ⟨totals.subtotalCents, totals.taxTotalCents, totals.totalCents,
    counted.map fun r => ⟨r.amountCents, r.discountCents, r.saleDiscountCents, (tax r).taxCents⟩⟩

theorem zip_map_filter (tax : LineRow → LineTax) (rows : List LineRow) :
    (rows.zip (rows.map tax)).filter (fun x => x.1.included) = (rows.filter LineRow.included).map fun r => (r, tax r) := by
  induction rows with
  | nil => rfl
  | cons r rows ih =>
    cases hi : r.included with
    | true => simp [hi, ih]
    | false => simp [hi, ih]

theorem quotedTerms_eq (doc : BillDocument) (expired : Bool) (lines : List BillLine) (tax : LineRow → LineTax) :
    quotedTerms (publicEstimate doc expired lines (Tax.total ((lineRows lines).map tax))) (lineRows lines)
      (Tax.total ((lineRows lines).map tax)) = termsBy tax (lineRows lines) := by
  simp only [quotedTerms, publicEstimate, includedTotals, Tax.total, zip_map_filter, List.map_map, termsBy]
  rfl

/-- A document just taxed holds the tax that was worked out. -/
theorem retotal_terms (settings : TaxSettings) (parent : LineParent) (row : BillRow) (lines : List BillLine) :
    (BillDocument.mk parent (retotal settings row lines).1 (retotal settings row lines).2).pricedTerms =
      termsBy settings.lineTax (lineRows lines) := by
  have hlen : ((lineRows lines).map fun r => r.withTax (settings.lineTax r).taxCents).length = lines.length := by
    simp [lineRows]
  simp only [BillDocument.pricedTerms, retotal, taxForLines_eq, includedTotals_eq, lineRows_withRows hlen, applyTotals,
    termsBy, PricedTerms.mk.injEq, true_and]
  rw [List.filter_map, List.map_map]
  rfl

/-! ## The draft invoice is priced as the estimate -/

/-- Two rows that come to the same price. -/
structure LineRow.SameItem (r r' : LineRow) : Prop where
  gross : r'.grossCents = r.grossCents
  off : r'.lessDiscount.discountCents = r.lessDiscount.discountCents
  base : r'.lessDiscount.base = r.lessDiscount.base
  taxClass : r'.taxClass = r.taxClass

theorem discountOff_zero (base : Int) (kind : Option DiscountKind) : discountOff base kind (some 0) = 0 := by
  cases kind with
  | none => rfl
  | some kind =>
    simp only [discountOff]
    split
    · rfl
    · cases kind with
      | percent => simp
      | amount => simp

theorem discountOff_discountOf {d : Discounted} {discount : Option DiscountIn} (h : discountOf d = .ok discount)
    (base : Int) : discountOff base (setDiscount discount).kind (setDiscount discount).value = discountOff base d.kind d.value := by
  obtain ⟨kind, value⟩ := d
  cases kind with
  | none =>
    cases h
    rfl
  | some kind =>
    cases value with
    | none =>
      cases h
      rfl
    | some value =>
      simp only [discountOf] at h
      split at h
      · next hz =>
        cases h
        rw [hz, discountOff_zero]
        rfl
      · split at h
        · cases h
          rfl
        · cases h

theorem LineRow.input_same {r : LineRow} {inp : LineInput} (h : r.input = .ok inp) (hi : r.included = true) :
    r.SameItem inp.line ∧ inp.line.included = true := by
  unfold LineRow.input at h
  split at h
  · cases h
  · next discount hd =>
    split at h
    · cases h
      have hoff : discountOff r.grossCents (setDiscount discount).kind (setDiscount discount).value =
          r.lessDiscount.discountCents := discountOff_discountOf hd r.grossCents
      refine ⟨⟨rfl, hoff, ?_, rfl⟩, rfl⟩
      have hbase : r.lessDiscount.base = r.grossCents - r.lessDiscount.discountCents := if_pos hi
      rw [hbase, ← hoff]
      rfl
    · cases h

theorem lineInputs_same {newId : Id → Id} {lines : List BillLine} {inputs : List (Id × LineInput)}
    (h : lineInputs newId lines = .ok inputs) (hi : ∀ l ∈ lines, l.row.included = true) :
    List.Forall₂ (fun r r' : LineRow => r.SameItem r' ∧ r'.included = true) (lineRows lines) (inputs.map fun x => x.2.line) := by
  induction lines generalizing inputs with
  | nil =>
    cases h
    exact .nil
  | cons l lines ih =>
    rw [lineInputs] at h
    split at h
    · next hin hrest =>
      cases h
      exact .cons (LineRow.input_same hin (hi l List.mem_cons_self)) (ih hrest fun l' hl' => hi l' (List.mem_cons_of_mem l hl'))
    · cases h
    · cases h

theorem map_price_same {β : Type} {f : LineRow → β}
    (hf : ∀ (r r' : LineRow) (share : Int), r.SameItem r' → f (r'.price share) = f (r.price share)) {rows rows' : List LineRow}
    (h : List.Forall₂ (fun r r' : LineRow => r.SameItem r' ∧ r'.included = true) rows rows') (shares : List Int) :
    (List.zipWith LineRow.price rows' shares).map f = (List.zipWith LineRow.price rows shares).map f := by
  induction h generalizing shares with
  | nil => rfl
  | cons hr _ ih =>
    cases shares with
    | nil => rfl
    | cons share shares => simp only [List.zipWith_cons_cons, List.map_cons, hf _ _ share hr.1, ih]

/-- Rows that come to the same price are priced and taxed alike. -/
theorem termsBy_same (settings : TaxSettings) {rows rows' : List LineRow} (d : Option Discounted)
    (h : List.Forall₂ (fun r r' : LineRow => r.SameItem r' ∧ r'.included = true) rows rows')
    (hi : ∀ r ∈ rows, r.included = true) :
    termsBy settings.lineTax (priceLines rows' d) = termsBy settings.lineTax (priceLines rows d) := by
  have hi' : ∀ r ∈ rows', r.included = true := by
    clear hi
    induction h with
    | nil => exact fun r hr => absurd hr List.not_mem_nil
    | cons hr _ ih =>
      intro r hm
      obtain rfl | hm := List.mem_cons.1 hm
      · exact hr.2
      · exact ih r hm
  have hbases : rows'.map (fun r => r.lessDiscount.base) = rows.map fun r => r.lessDiscount.base := by
    clear hi hi'
    induction h with
    | nil => rfl
    | cons hr _ ih => rw [List.map_cons, List.map_cons, hr.1.base, ih]
  have hshares : documentShares rows' d = documentShares rows d := by rw [documentShares, documentShares, hbases]
  have hamount : ∀ (r r' : LineRow) (share : Int), r.SameItem r' → (r'.price share).amountCents = (r.price share).amountCents := by
    intro r r' share hr
    show r'.grossCents - r'.lessDiscount.discountCents - share = r.grossCents - r.lessDiscount.discountCents - share
    rw [hr.gross, hr.off]
  have htax : ∀ (r r' : LineRow) (share : Int), r.SameItem r' →
      settings.lineTax (r'.price share) = settings.lineTax (r.price share) := by
    intro r r' share hr
    have hline : (r'.price share).taxLine = (r.price share).taxLine := by
      rw [LineRow.taxLine, LineRow.taxLine, hamount r r' share hr]
      exact congrArg (fun c => ({ amountCents := (r.price share).amountCents, taxClass := c } : TaxLine)) hr.taxClass
    rw [TaxSettings.lineTax, TaxSettings.lineTax, hline]
  have hterms : ∀ (r r' : LineRow) (share : Int), r.SameItem r' →
      (⟨(r'.price share).amountCents, (r'.price share).discountCents, (r'.price share).saleDiscountCents,
        (settings.lineTax (r'.price share)).taxCents⟩ : LineTerms) =
      ⟨(r.price share).amountCents, (r.price share).discountCents, (r.price share).saleDiscountCents,
        (settings.lineTax (r.price share)).taxCents⟩ := by
    intro r r' share hr
    rw [hamount r r' share hr, htax r r' share hr]
    exact congrArg (fun n => LineTerms.mk _ n _ _) hr.off
  simp only [termsBy, priceLines_filter, List.filter_eq_self.2 hi, List.filter_eq_self.2 hi']
  rw [priceLines_eq, priceLines_eq, hshares, map_price_same htax h, map_price_same hterms h]

/-! ## The acceptance -/

/-- The rows of an estimate with these add-ons ticked, priced. -/
def tickedRows (doc : BillDocument) (lineIds : List Id) : List LineRow :=
  priceLines (doc.lines.map fun l => { l.row with selected := l.row.optional && decide (l.id ∈ lineIds) })
    (some doc.row.discount)

theorem tickAddons_rows {doc : BillDocument} {lineIds : List Id}
    (h : ∀ id ∈ lineIds, ∃ l ∈ doc.lines, l.row.optional = true ∧ l.id = id) :
    ∃ ticked, tickAddons doc.row doc.lines lineIds = .ok ticked ∧ lineRows ticked = tickedRows doc lineIds ∧
      lineKeys ticked = lineKeys doc.lines ∧ priceLines (lineRows ticked) (some doc.row.discount) = lineRows ticked := by
  have hall : (lineIds.all fun id => doc.lines.any fun l => l.row.optional && decide (l.id = id)) = true := by
    refine List.all_eq_true.2 fun id hid => ?_
    obtain ⟨l, hl, ho, he⟩ := h id hid
    exact List.any_eq_true.2 ⟨l, hl, by simp [ho, he]⟩
  refine ⟨_, if_pos hall, ?_, ?_, ?_⟩
  · rw [lineRows_repriced, tickedRows, lineRows, List.map_map]
    rfl
  · rw [lineKeys_repriced]
    simp [lineKeys]
  · rw [lineRows_repriced, priceLines_priceLines]

theorem BillRow.flush_read (read new : BillRow) : read.flush new read = new := by
  simp [BillRow.flush, Discounted.flush]

theorem answerable_sent {doc : BillDocument} {expired : Bool} (h : doc.estimateStatus expired = "sent") :
    doc.answerable expired = .ok () := if_pos h

/-- A sent estimate is accepted with what was shown of it, if that is what it comes to. -/
theorem accepted_ok {settings : TaxSettings} {doc : BillDocument} {expired : Bool} {lineIds : List Id} {ticked : List BillLine}
    (hp : doc.parent = .estimate) (hs : doc.estimateStatus expired = "sent") (hn : (doc.lines.map (·.id)).Nodup)
    (ht : tickAddons doc.row doc.lines lineIds = .ok ticked) (hkeys : lineKeys ticked = lineKeys doc.lines)
    {shown : Option Int} (hshown : shown = none ∨ shown = some (termsBy settings.lineTax (lineRows ticked)).totalCents) :
    acceptedEstimate settings doc expired lineIds shown =
      .ok ⟨doc.parent, { (retotal settings doc.row ticked).1 with status := .accepted }, (retotal settings doc.row ticked).2⟩ := by
  have htotal : (retotal settings doc.row ticked).1.totalCents = (termsBy settings.lineTax (lineRows ticked)).totalCents :=
    congrArg PricedTerms.totalCents (retotal_terms settings .estimate doc.row ticked)
  have hagreed : (shown.any fun n => decide (n ≠ (retotal settings doc.row ticked).1.totalCents)) = false := by
    obtain rfl | rfl := hshown
    · rfl
    · simp [htotal]
  have hid := ids_of_lineKeys ((lineKeys_retotal settings doc.row ticked).trans hkeys)
  have hall : ((doc.lines.zip (retotal settings doc.row ticked).2).all fun x =>
      decide (x.1.id ∈ doc.lines.map (·.id)) || decide (x.2 = x.1)) = true := by
    refine List.all_eq_true.2 fun x hx => ?_
    have := List.mem_map.2 ⟨x.1, (List.of_mem_zip hx).1, @rfl _ x.1.id⟩
    simp only [this, decide_true, Bool.true_or]
  have hrun : BillCommand.run settings doc (.accept expired lineIds shown) =
      .ok ⟨doc.row, { (retotal settings doc.row ticked).1 with status := .accepted },
        .updated (doc.lines.zip (retotal settings doc.row ticked).2)⟩ := by
    simp only [BillCommand.run, hp, ne_eq, not_true, if_false, answerable_sent hs, ht, hagreed, Bool.false_eq_true]
  simp only [acceptedEstimate, hrun, BillWrite.flush, hall, if_true, map_flushLine hid hn, BillRow.flush_read]

theorem lineRows_retotal (settings : TaxSettings) (row : BillRow) (lines : List BillLine) :
    lineRows (retotal settings row lines).2 = (lineRows lines).map fun r => r.withTax (settings.lineTax r).taxCents := by
  simp only [retotal, taxForLines_eq]
  exact lineRows_withRows (by simp [lineRows])

theorem termsBy_withTax (settings : TaxSettings) (rows : List LineRow) (tax : LineRow → Int) :
    termsBy settings.lineTax (rows.map fun r => r.withTax (tax r)) = termsBy settings.lineTax rows := by
  simp only [termsBy, List.filter_map, List.map_map]
  rfl

theorem filter_lineRows (lines : List BillLine) :
    lineRows (lines.filter fun l => l.row.included) = (lineRows lines).filter LineRow.included := by
  rw [lineRows, lineRows, List.filter_map]
  rfl

/-- The draft invoice comes to what the estimate's lines come to. -/
theorem convert_terms {settings : TaxSettings} {doc invoice : BillDocument} {links : EstimateLinks}
    {expired clientActive : Bool} {newId : Id → Id}
    (hpriced : priceLines (lineRows doc.lines) (some doc.row.discount) = lineRows doc.lines)
    (h : convertEstimate settings doc links expired clientActive newId = .ok invoice) :
    invoice.pricedTerms = termsBy settings.lineTax (lineRows doc.lines) := by
  unfold convertEstimate at h
  split at h
  · cases h
  split at h
  · cases h
  split at h
  · cases h
  split at h
  · cases h
  split at h
  · cases h
  · next inputs hin =>
    simp only at h
    split at h
    · cases h
    · next lines hnew =>
      cases h
      have hcounted : ∀ l ∈ doc.lines.filter (fun l => l.row.included), l.row.included = true := fun l hl =>
        (List.mem_filter.1 hl).2
      have hrows : ∀ r ∈ (lineRows doc.lines).filter LineRow.included, r.included = true := fun r hr =>
        (List.mem_filter.1 hr).2
      have hsame := lineInputs_same hin hcounted
      rw [filter_lineRows] at hsame
      rw [retotal_terms, (newLines_ok hnew).1, termsBy_same settings _ hsame hrows, ← priceLines_filter, hpriced]
      simp only [termsBy, List.filter_filter, Bool.and_self]

/-! ## The quote -/

/-- How the page taxes a line of an estimate still sent. -/
def quoteTax (settings : TaxSettings) (fixedRates : List TaxComponent) (links : EstimateLinks) (r : LineRow) : LineTax :=
  if links.convertedInvoiceId = none then settings.lineTax r else Tax.fixedLine r.taxLine r.taxAmountCents fixedRates

theorem estimateTax_sent {settings : TaxSettings} {fixedRates : List TaxComponent} {doc : BillDocument} {links : EstimateLinks}
    {expired : Bool} (hs : doc.estimateStatus expired = "sent") (rows : List LineRow) :
    estimateTax settings fixedRates doc links expired rows = Tax.total (rows.map (quoteTax settings fixedRates links)) := by
  by_cases hc : links.convertedInvoiceId = none
  · rw [estimateTax, if_pos ⟨hs, hc⟩, computeTax, List.map_map]
    exact congrArg Tax.total (List.map_congr_left fun r _ => (if_pos hc).symm)
  · rw [estimateTax, if_neg fun h => hc h.2, splitFixed, List.map_map]
    exact congrArg Tax.total (List.map_congr_left fun r _ => (if_neg hc).symm)

theorem Tax.fixedLine_amounts (l : TaxLine) (fixed : Int) (rates : List TaxComponent) :
    (Tax.fixedLine l fixed rates).baseCents = l.amountCents ∧ (Tax.fixedLine l fixed rates).taxCents = fixed := by
  obtain ⟨-, he⟩ | ⟨hw, he⟩ | ⟨last, -, -, -, he⟩ := Tax.fixedLine_cases l fixed rates
  · rw [he]
    exact ⟨rfl, rfl⟩
  · rw [he]
    exact ⟨Tax.base_line l rates, hw⟩
  · rw [he]
    exact ⟨rfl, rfl⟩

/-- Two ways to tax the amounts come to the same when they agree on every line that counts. -/
theorem termsBy_eq_iff {tax tax' : LineRow → LineTax} (hb : ∀ r, (tax r).baseCents = (tax' r).baseCents)
    (rows : List LineRow) :
    termsBy tax rows = termsBy tax' rows ↔
      ∀ r ∈ rows, r.included = true → (tax r).taxCents = (tax' r).taxCents := by
  constructor
  · intro h r hr hi
    have hlines := List.map_inj_left.1 (congrArg PricedTerms.lines h) r (List.mem_filter.2 ⟨hr, hi⟩)
    exact congrArg LineTerms.taxCents hlines
  · intro h
    have hcounted : ∀ r ∈ rows.filter LineRow.included, (tax r).taxCents = (tax' r).taxCents := fun r hr =>
      h r (List.mem_filter.1 hr).1 (List.mem_filter.1 hr).2
    have hbase : ((rows.filter LineRow.included).map tax).map (·.baseCents) =
        ((rows.filter LineRow.included).map tax').map (·.baseCents) := by
      rw [List.map_map, List.map_map]
      exact List.map_congr_left fun r _ => hb r
    have htax : ((rows.filter LineRow.included).map tax).map (·.taxCents) =
        ((rows.filter LineRow.included).map tax').map (·.taxCents) := by
      rw [List.map_map, List.map_map]
      exact List.map_congr_left hcounted
    have hlines : ((rows.filter LineRow.included).map fun r =>
          (⟨r.amountCents, r.discountCents, r.saleDiscountCents, (tax r).taxCents⟩ : LineTerms)) =
        (rows.filter LineRow.included).map fun r =>
          ⟨r.amountCents, r.discountCents, r.saleDiscountCents, (tax' r).taxCents⟩ :=
      List.map_congr_left fun r hr => by rw [hcounted r hr]
    simp only [termsBy, Tax.total, hbase, htax, hlines]

/-- What the page quotes for these ids is what accepting them stores, whether or not the client
sends the total they were shown, and what the draft invoice made of it is for. -/
def QuotedAsBilled (settings : TaxSettings) (fixedRates : List TaxComponent) (doc : BillDocument) (links : EstimateLinks)
    (expired : Bool) (lineIds : List Id) : Prop :=
  ∃ ticked result page, quotedLines settings fixedRates doc links expired lineIds = .ok (ticked, result) ∧
    estimateContext settings fixedRates doc links expired (some lineIds) = .ok page ∧
    ∀ shown, shown = none ∨ shown = some page.totalCents →
      ∃ accepted, acceptedEstimate settings doc expired lineIds shown = .ok accepted ∧
        quotedTerms page (lineRows ticked) result = accepted.pricedTerms ∧
        ∀ expired clientActive newId invoice,
          convertEstimate settings accepted links expired clientActive newId = .ok invoice →
            invoice.pricedTerms = accepted.pricedTerms

/-- A sent estimate is quoted as it is accepted and billed exactly if no invoice was made of it
yet, or the tax stored on every line that counts is what its amount is taxed. -/
theorem quoted_as_billed {settings : TaxSettings} {fixedRates : List TaxComponent} {doc : BillDocument} {links : EstimateLinks}
    {expired : Bool} {lineIds : List Id} (hp : doc.parent = .estimate) (hs : doc.estimateStatus expired = "sent")
    (hn : (doc.lines.map (·.id)).Nodup) (hids : ∀ id ∈ lineIds, ∃ l ∈ doc.lines, l.row.optional = true ∧ l.id = id) :
    QuotedAsBilled settings fixedRates doc links expired lineIds ↔
      links.convertedInvoiceId = none ∨
        ∀ r ∈ tickedRows doc lineIds, r.included = true → r.taxAmountCents = (settings.lineTax r).taxCents := by
  obtain ⟨ticked, ht, hrows, hkeys, hpriced⟩ := tickAddons_rows hids
  have hquote : quotedLines settings fixedRates doc links expired lineIds =
      .ok (ticked, Tax.total ((lineRows ticked).map (quoteTax settings fixedRates links))) := by
    simp only [quotedLines, answerable_sent hs, ht, estimateTax_sent hs]
  have hpage := quotedTerms_eq doc expired ticked (quoteTax settings fixedRates links)
  have hbase : ∀ r, (quoteTax settings fixedRates links r).baseCents = (settings.lineTax r).baseCents := by
    intro r
    unfold quoteTax
    split
    · rfl
    · rw [(Tax.fixedLine_amounts _ _ _).1, settings.base_lineTax]
      rfl
  have hterms := termsBy_eq_iff hbase (lineRows ticked)
  rw [← hrows]
  constructor
  · rintro ⟨ticked', result, page, hq, hc, hall⟩
    obtain ⟨rfl, rfl⟩ := Prod.mk.inj (Except.ok.inj (hquote.symm.trans hq))
    rw [estimateContext, hquote] at hc
    obtain rfl := Except.ok.inj hc
    obtain ⟨accepted, ha, hsame, -⟩ := hall none (.inl rfl)
    rw [accepted_ok hp hs hn ht hkeys (.inl rfl)] at ha
    obtain rfl := Except.ok.inj ha
    have heq := hpage.symm.trans (hsame.trans (retotal_terms settings doc.parent doc.row ticked))
    by_cases hconv : links.convertedInvoiceId = none
    · exact .inl hconv
    · refine .inr fun r hr hi => ?_
      have := hterms.1 heq r hr hi
      rwa [quoteTax, if_neg hconv, (Tax.fixedLine_amounts _ _ _).2] at this
  · intro hcond
    have heq : termsBy (quoteTax settings fixedRates links) (lineRows ticked) = termsBy settings.lineTax (lineRows ticked) := by
      refine hterms.2 fun r hr hi => ?_
      unfold quoteTax
      split
      · rfl
      · next hconv =>
        rw [(Tax.fixedLine_amounts _ _ _).2]
        exact hcond.resolve_left hconv r hr hi
    refine ⟨ticked, _, _, hquote, by rw [estimateContext, hquote]; rfl, fun shown hshown => ?_⟩
    have hshown' : shown = none ∨ shown = some (termsBy settings.lineTax (lineRows ticked)).totalCents :=
      hshown.imp_right fun h => h.trans (congrArg (fun t => some t.totalCents) (hpage.trans heq))
    refine ⟨_, accepted_ok hp hs hn ht hkeys hshown', ?_, fun expired' active newId invoice hconv => ?_⟩
    · exact hpage.trans (heq.trans (retotal_terms settings doc.parent doc.row ticked).symm)
    · have hlines := lineRows_retotal settings doc.row ticked
      have hstored := convert_terms (by rw [hlines]; exact priceLines_map_withTax hpriced _) hconv
      rw [hstored, hlines, termsBy_withTax]
      exact (retotal_terms settings doc.parent doc.row ticked).symm

/-! ## Two estimates -/

def gstOnly : TaxSettings := ⟨[⟨.GST, 1 / 20, by norm_num⟩], true⟩

def workRow : LineRow where
  quantity := 1
  unitAmountCents := 10000
  taxClass := .standard
  discount := ⟨none, none⟩
  saleDiscountCents := 1000
  amountCents := 9000
  taxAmountCents := 450

def addonRow : LineRow where
  quantity := 1
  unitAmountCents := 5000
  taxClass := .standard
  optional := true
  discount := ⟨none, none⟩
  amountCents := 5000
  taxAmountCents := 250

/-- $100 of work and an add-on of $50, ten percent off, as it was sent. -/
def sentEstimate : BillDocument where
  parent := .estimate
  row := ⟨.sent, ⟨some .percent, some 10⟩, 9000, 450, 9450⟩
  lines := [⟨"work", workRow⟩, ⟨"addon", addonRow⟩]

example : created .estimate (some ⟨.percent, 10, by decide, by decide⟩)
    [("work", ⟨1, 10000, .standard, false, none, by decide, by decide⟩),
      ("addon", ⟨1, 5000, .standard, true, none, by decide, by decide⟩)] gstOnly true = .ok sentEstimate := by
  decide +kernel

/-- Not converted yet, it is quoted with its add-on as it is accepted. -/
theorem sent_quoted_as_billed : QuotedAsBilled gstOnly gstOnly.rates sentEstimate ⟨none, none⟩ false ["addon"] :=
  (quoted_as_billed rfl rfl (by decide) (by simp [sentEstimate, addonRow])).2 (.inl rfl)

/-- Converted while it was only sent, it is quoted with the tax of the add-on's old amount, and
the client who accepts pays less than the page said. -/
theorem converted_quoted_otherwise :
    ¬∀ (links : EstimateLinks) (lineIds : List Id), (∀ id ∈ lineIds, ∃ l ∈ sentEstimate.lines, l.row.optional = true ∧ l.id = id) →
      QuotedAsBilled gstOnly gstOnly.rates sentEstimate links false lineIds := by
  intro hall
  obtain ⟨ticked, result, page, hq, hc, h⟩ := hall ⟨some "invoice", none⟩ ["addon"] (by simp [sentEstimate, addonRow])
  obtain ⟨accepted, ha, hsame, -⟩ := h none (.inl rfl)
  have hpage : (estimateContext gstOnly gstOnly.rates sentEstimate ⟨some "invoice", none⟩ false (some ["addon"])).map (·.totalCents) =
      .ok 14200 := by decide +kernel
  have hstored : (acceptedEstimate gstOnly sentEstimate false ["addon"] none).map (·.row.totalCents) = .ok 14175 := by
    decide +kernel
  rw [hc] at hpage
  rw [ha] at hstored
  have hquoted : page.totalCents = 14200 := Except.ok.inj hpage
  have htotal : page.totalCents = accepted.row.totalCents := congrArg PricedTerms.totalCents hsame
  rw [hquoted, show accepted.row.totalCents = 14175 from Except.ok.inj hstored] at htotal
  exact absurd htotal (by decide)

end ClientBridge
