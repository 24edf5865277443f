import ClientBridge.Billing.Documents

/-!
# A document's totals are its lines' totals

Every command leaves a document whose lines are priced and whose totals are sums over its included
lines (`AddsUp`).  The commands that load the document's row before they lock it price the lines
for the discount they loaded and write only the totals they changed, so theirs is true only as long
as the row stays as it was until they have the lock (`Undisturbed`).
-/

namespace ClientBridge

open Runs

/-! ## Pricing twice -/

/-- A line's tax plays no part in its price. -/
def LineRow.withTax (r : LineRow) (tax : Int) : LineRow := { r with taxAmountCents := tax }

@[simp] theorem LineRow.amount_withTax (r : LineRow) (tax : Int) : (r.withTax tax).amountCents = r.amountCents := rfl

@[simp] theorem LineRow.included_withTax (r : LineRow) (tax : Int) : (r.withTax tax).included = r.included := rfl

/-- How a document's discount falls on its lines. -/
def documentShares (lines : List LineRow) (d : Option Discounted) : List Int :=
  let bases := lines.map fun r => r.lessDiscount.base
  allocate (documentOff d bases) bases

def LineRow.price (r : LineRow) (share : Int) : LineRow := r.lessDiscount.lessShare share

theorem priceLines_eq (lines : List LineRow) (d : Option Discounted) :
    priceLines lines d = List.zipWith LineRow.price lines (documentShares lines d) := by
  simp only [priceLines, documentShares, List.map_map]
  rw [List.zipWith_map_left]
  rfl

@[simp] theorem length_documentShares (lines : List LineRow) (d : Option Discounted) :
    (documentShares lines d).length = lines.length := by
  simp [documentShares]

theorem LineRow.price_price (r : LineRow) (share : Int) : (r.price share).price share = r.price share := rfl

theorem LineRow.price_withTax (r : LineRow) (tax share : Int) : (r.withTax tax).price share = (r.price share).withTax tax :=
  rfl

theorem documentShares_priceLines (lines : List LineRow) (d d' : Option Discounted) :
    documentShares (priceLines lines d) d' = documentShares lines d' := by
  have hb : (priceLines lines d).map (fun r => r.lessDiscount.base) = lines.map fun r => r.lessDiscount.base := by
    rw [priceLines_eq]
    exact map_zipWith_left LineRow.price _ _ (fun _ _ => rfl) (length_documentShares lines d)
  rw [documentShares, hb, documentShares]

/-- Pricing priced lines changes nothing. -/
theorem priceLines_priceLines (lines : List LineRow) (d : Option Discounted) :
    priceLines (priceLines lines d) d = priceLines lines d := by
  rw [priceLines_eq (priceLines lines d), documentShares_priceLines, priceLines_eq lines]
  apply List.ext_getElem
  · simp
  · intro i h1 h2
    simp [LineRow.price_price]

/-- Taxing priced lines leaves them priced. -/
theorem priceLines_map_withTax {lines : List LineRow} {d : Option Discounted} (h : priceLines lines d = lines)
    (tax : LineRow → Int) :
    priceLines (lines.map fun r => r.withTax (tax r)) d = lines.map fun r => r.withTax (tax r) := by
  have hs : documentShares (lines.map fun r => r.withTax (tax r)) d = documentShares lines d := by
    rw [documentShares, List.map_map]
    rfl
  rw [priceLines_eq, hs]
  apply List.ext_getElem
  · simp
  · intro i h1 h2
    have hi : i < lines.length := by simpa using h2
    have hl : i < (documentShares lines d).length := by simpa using hi
    have hp : (lines[i]).price (documentShares lines d)[i] = lines[i] := by
      have := List.getElem_of_eq h (by simpa [priceLines_eq] using hi)
      simpa [priceLines_eq] using this
    simp [LineRow.price_withTax, hp]

/-! ## Totals -/

/-- What a line is charged in tax. -/
def TaxSettings.lineTax (settings : TaxSettings) (r : LineRow) : LineTax :=
  Tax.line r.taxLine (if settings.registered then settings.rates else []) false

/-- A price without tax in it is the base of its tax. -/
theorem Tax.base_line (l : TaxLine) (rates : List TaxComponent) : (Tax.line l rates false).baseCents = l.amountCents := by
  unfold Tax.line
  by_cases h : (!l.taxable || (Tax.applied l.taxClass rates).isEmpty) = true
  · rw [if_pos h]
  · rw [if_neg h]
    rfl

theorem TaxSettings.base_lineTax (settings : TaxSettings) (r : LineRow) :
    (settings.lineTax r).baseCents = r.amountCents := Tax.base_line r.taxLine _

theorem taxForLines_eq (settings : TaxSettings) (rows : List LineRow) :
    taxForLines settings rows = (rows.map fun r => r.withTax (settings.lineTax r).taxCents,
      Tax.total (rows.map settings.lineTax)) := by
  have hres : computeTax (rows.map LineRow.taxLine) settings.rates settings.registered false =
      Tax.total (rows.map settings.lineTax) := by
    simp only [computeTax, List.map_map]
    rfl
  have hrows : List.zipWith (fun r (t : LineTax) => r.withTax t.taxCents) rows (rows.map settings.lineTax) =
      rows.map fun r => r.withTax (settings.lineTax r).taxCents := by
    rw [List.zipWith_map_right, List.zipWith_self]
  simp only [taxForLines, hres]
  exact congrArg (·, _) hrows

/-- The amounts and taxes of the lines a document includes. -/
def includedAmount (rows : List LineRow) : Int := ((rows.filter LineRow.included).map (·.amountCents)).sum

def includedTax (rows : List LineRow) : Int := ((rows.filter LineRow.included).map (·.taxAmountCents)).sum

theorem includedTotals_eq (settings : TaxSettings) (rows : List LineRow) :
    includedTotals (rows.map fun r => r.withTax (settings.lineTax r).taxCents) (Tax.total (rows.map settings.lineTax)) =
      Tax.total ((rows.filter LineRow.included).map settings.lineTax) := by
  have hz : ∀ rows : List LineRow,
      (((rows.map fun r => r.withTax (settings.lineTax r).taxCents).zip (rows.map settings.lineTax)).filter
        fun x => x.1.included).map (·.2) = (rows.filter LineRow.included).map settings.lineTax := by
    intro rows
    induction rows with
    | nil => rfl
    | cons r rows ih =>
      by_cases h : r.included = true
      · simp [h, ih]
      · simp [h, ih]
  exact congrArg Tax.total (hz rows)

theorem sum_base_lineTax (settings : TaxSettings) (rows : List LineRow) :
    (Tax.total (rows.map settings.lineTax)).subtotalCents = (rows.map (·.amountCents)).sum := by
  simp [Tax.total, Function.comp_def, TaxSettings.base_lineTax]

theorem sum_tax_lineTax (settings : TaxSettings) (rows : List LineRow) :
    (Tax.total (rows.map settings.lineTax)).taxTotalCents = (rows.map fun r => (settings.lineTax r).taxCents).sum := by
  simp [Tax.total, Function.comp_def]

/-- Lines that are taxed have the tax that was worked out for them. -/
theorem includedTax_map (settings : TaxSettings) (rows : List LineRow) :
    includedTax (rows.map fun r => r.withTax (settings.lineTax r).taxCents) =
      ((rows.filter LineRow.included).map fun r => (settings.lineTax r).taxCents).sum := by
  simp [includedTax, List.filter_map, Function.comp_def, LineRow.withTax]
  rfl

theorem includedAmount_map (tax : LineRow → Int) (rows : List LineRow) :
    includedAmount (rows.map fun r => r.withTax (tax r)) = includedAmount rows := by
  simp [includedAmount, List.filter_map, Function.comp_def]

@[simp] theorem lineRows_withRows {lines : List BillLine} {rows : List LineRow} (h : rows.length = lines.length) :
    lineRows (withRows lines rows) = rows := by
  have hm := map_zipWith_right (fun (l : BillLine) (r : LineRow) => (⟨l.id, r⟩ : BillLine)) (·.row) id (fun _ _ => rfl) h
  rwa [List.map_id] at hm

/-- What a document's row and lines come to: totals that are sums over the included lines, and lines
priced for the row's discount. -/
structure TermsAddUp (row : BillRow) (rows : List LineRow) : Prop where
  subtotal : row.subtotalCents = includedAmount rows
  tax : row.taxTotalCents = includedTax rows
  total : row.totalCents = includedAmount rows + includedTax rows
  priced : priceLines rows (some row.discount) = rows

theorem retotal_addUp (settings : TaxSettings) {row : BillRow} {lines : List BillLine}
    (h : priceLines (lineRows lines) (some row.discount) = lineRows lines) :
    TermsAddUp (retotal settings row lines).1 (lineRows (retotal settings row lines).2) := by
  have hlen : ((lineRows lines).map fun r => r.withTax (settings.lineTax r).taxCents).length = lines.length := by
    simp [lineRows]
  simp only [retotal, taxForLines_eq, includedTotals_eq, lineRows_withRows hlen, applyTotals]
  have hs := sum_base_lineTax settings ((lineRows lines).filter LineRow.included)
  have ht := sum_tax_lineTax settings ((lineRows lines).filter LineRow.included)
  have htot : (Tax.total (((lineRows lines).filter LineRow.included).map settings.lineTax)).totalCents =
      (Tax.total (((lineRows lines).filter LineRow.included).map settings.lineTax)).subtotalCents +
        (Tax.total (((lineRows lines).filter LineRow.included).map settings.lineTax)).taxTotalCents := rfl
  constructor
  · rw [includedAmount_map]
    exact hs
  · rw [includedTax_map]
    exact ht
  · rw [includedAmount_map, includedTax_map, ← ht]
    show _ = includedAmount (lineRows lines) + _
    rw [htot, hs]
    rfl
  · exact priceLines_map_withTax h _

/-! ## What a flush leaves -/

/-- The columns a document is priced by, and its totals. -/
def BillRow.SameTerms (row row' : BillRow) : Prop :=
  row.discount = row'.discount ∧ row.subtotalCents = row'.subtotalCents ∧
    row.taxTotalCents = row'.taxTotalCents ∧ row.totalCents = row'.totalCents

theorem BillRow.SameTerms.refl (row : BillRow) : row.SameTerms row := ⟨rfl, rfl, rfl, rfl⟩

theorem TermsAddUp.congr {row row' : BillRow} {rows : List LineRow} (h : TermsAddUp row rows)
    (hs : row.SameTerms row') : TermsAddUp row' rows := by
  obtain ⟨hd, h1, h2, h3⟩ := hs
  exact ⟨h1 ▸ h.subtotal, h2 ▸ h.tax, h3 ▸ h.total, hd ▸ h.priced⟩

/-- Columns that are as they were read end up as the command has them. -/
theorem BillRow.flush_sameTerms {read new current : BillRow} (h : read.SameTerms current) :
    new.SameTerms (read.flush new current) := by
  obtain ⟨hd, h1, h2, h3⟩ := h
  refine ⟨?_, ?_, ?_, ?_⟩
  · rw [BillRow.flush, ← hd]
    simp [Discounted.flush]
  · rw [BillRow.flush, ← h1, column_read]
  · rw [BillRow.flush, ← h2, column_read]
  · rw [BillRow.flush, ← h3, column_read]

/-- Columns the command left as it loaded them stay as they are. -/
theorem column_self {α : Type} [DecidableEq α] (read current : α) : column read read current = current := if_pos rfl

theorem LineRow.flush_read (read new : LineRow) : read.flush new read = new := by
  simp [LineRow.flush, Discounted.flush]

theorem map_flushLine {lines new : List BillLine} (hid : new.map (·.id) = lines.map (·.id))
    (hn : (lines.map (·.id)).Nodup) : lines.map (flushLine (lines.zip new)) = new := by
  induction lines generalizing new with
  | nil => exact (List.map_eq_nil_iff.1 hid).symm
  | cons l lines ih =>
    cases new with
    | nil => cases hid
    | cons n new =>
      obtain ⟨hl, hid⟩ := List.cons_eq_cons.1 hid
      obtain ⟨hnot, hn⟩ := List.nodup_cons.1 hn
      have hrest : lines.map (flushLine ((l, n) :: lines.zip new)) = lines.map (flushLine (lines.zip new)) := by
        refine List.map_congr_left fun l' hl' => ?_
        have hne : l.id ≠ l'.id := fun he => hnot (List.mem_map.2 ⟨l', hl', he.symm⟩)
        simp [flushLine, hne]
      rw [List.zip_cons_cons, List.map_cons, hrest, ih hid hn]
      have hhead : flushLine ((l, n) :: lines.zip new) l = n := by
        have hl : n.id = l.id := hl
        simp only [flushLine, List.find?_cons, decide_true, LineRow.flush_read, ← hl]
      rw [hhead]

/-- A document that adds up. -/
structure BillDocument.Sound (doc : BillDocument) : Prop where
  addUp : TermsAddUp doc.row (lineRows doc.lines)
  lineIds : (doc.lines.map (·.id)).Nodup
  required : doc.parent ≠ .estimate → ∀ l ∈ doc.lines, l.row.optional = false

/-- What an update of a document's lines leaves of them. -/
def lineKeys (lines : List BillLine) : List (Id × Bool) := lines.map fun l => (l.id, l.row.optional)

theorem ids_of_lineKeys {lines new : List BillLine} (h : lineKeys new = lineKeys lines) :
    new.map (·.id) = lines.map (·.id) := by
  have := congrArg (List.map Prod.fst) h
  simpa [lineKeys, Function.comp_def] using this

theorem BillDocument.Sound.required_of_keys {doc : BillDocument} (hd : doc.Sound) {new : List BillLine}
    (h : lineKeys new = lineKeys doc.lines) (hp : doc.parent ≠ .estimate) : ∀ l ∈ new, l.row.optional = false := by
  intro l hl
  have hmem : (l.id, l.row.optional) ∈ lineKeys doc.lines := h ▸ List.mem_map.2 ⟨l, hl, rfl⟩
  obtain ⟨l', hl', he⟩ := List.mem_map.1 hmem
  rw [← (Prod.mk.inj he).2]
  exact hd.required hp l' hl'

/-- A write that leaves the document adding up. -/
def BillWrite.Leaves (w : BillWrite) (doc : BillDocument) : Prop :=
  ∃ doc', w.flush doc = some doc' ∧ doc'.Sound

theorem BillWrite.leaves_updated {w : BillWrite} {doc : BillDocument} {new : List BillLine}
    (hs : w.read.SameTerms doc.row) (hw : w.lines = .updated (doc.lines.zip new)) (hd : doc.Sound)
    (hkeys : lineKeys new = lineKeys doc.lines) (hadd : TermsAddUp w.row (lineRows new)) : w.Leaves doc := by
  have hid := ids_of_lineKeys hkeys
  have hall : ((doc.lines.zip new).all fun x => decide (x.1.id ∈ doc.lines.map (·.id)) || decide (x.2 = x.1)) = true := by
    refine List.all_eq_true.2 fun x hx => ?_
    have := List.mem_map.2 ⟨x.1, (List.of_mem_zip hx).1, @rfl _ x.1.id⟩
    simp only [this, decide_true, Bool.true_or]
  refine ⟨⟨doc.parent, w.read.flush w.row doc.row, new⟩, ?_, ?_, ?_, hd.required_of_keys hkeys⟩
  · simp only [BillWrite.flush, hw, hall, if_true, map_flushLine hid hd.lineIds]
  · exact hadd.congr (BillRow.flush_sameTerms hs)
  · rw [hid]
    exact hd.lineIds

theorem BillWrite.leaves_replaced {w : BillWrite} {doc : BillDocument} {new : List BillLine}
    (hs : w.read.SameTerms doc.row) (hw : w.lines = .replaced new) (hadd : TermsAddUp w.row (lineRows new))
    (hid : (new.map (·.id)).Nodup) (hopt : doc.parent ≠ .estimate → ∀ l ∈ new, l.row.optional = false) :
    w.Leaves doc :=
  ⟨⟨doc.parent, w.read.flush w.row doc.row, new⟩, by simp only [BillWrite.flush, hw],
    hadd.congr (BillRow.flush_sameTerms hs), hid, hopt⟩

/-- A write of the row alone that leaves its terms be. -/
theorem BillWrite.leaves_row {w : BillWrite} {doc : BillDocument} (hw : w.lines = .updated [])
    (hr : w.read.SameTerms w.row) (hd : doc.Sound) : w.Leaves doc := by
  obtain ⟨h0, h1, h2, h3⟩ := hr
  have hline : flushLine [] = id := rfl
  refine ⟨⟨doc.parent, w.read.flush w.row doc.row, doc.lines⟩, ?_, hd.addUp.congr ?_, hd.lineIds, hd.required⟩
  · simp [BillWrite.flush, hw, hline]
  · refine ⟨?_, ?_, ?_, ?_⟩
    · rw [BillRow.flush, ← h0]
      simp [Discounted.flush, column_self]
    · rw [BillRow.flush, ← h1, column_self]
    · rw [BillRow.flush, ← h2, column_self]
    · rw [BillRow.flush, ← h3, column_self]

/-! ## The commands -/

theorem lineKeys_withRows {lines : List BillLine} {rows : List LineRow}
    (h : rows.map (·.optional) = (lineRows lines).map (·.optional)) : lineKeys (withRows lines rows) = lineKeys lines := by
  have hlen : rows.length = lines.length := by
    have := congrArg List.length h
    simpa [lineRows] using this
  apply List.ext_getElem
  · simp [lineKeys, withRows, hlen]
  · intro i h1 h2
    have hi : i < lines.length := by simpa [lineKeys] using h2
    have hi' : i < rows.length := hlen ▸ hi
    have ho : rows[i].optional = lines[i].row.optional := by
      have := List.getElem_of_eq h (by simpa using hi')
      simpa [lineRows] using this
    simp [lineKeys, withRows, ho]

theorem optional_priceLines (rows : List LineRow) (d : Option Discounted) :
    (priceLines rows d).map (·.optional) = rows.map (·.optional) := by
  rw [priceLines_eq]
  exact map_zipWith_left LineRow.price _ _ (fun _ _ => rfl) (length_documentShares rows d)

theorem lineRows_repriced (row : BillRow) (lines : List BillLine) :
    lineRows (repriced row lines) = priceLines (lineRows lines) (some row.discount) :=
  lineRows_withRows (by simp [lineRows])

theorem lineKeys_repriced (row : BillRow) (lines : List BillLine) : lineKeys (repriced row lines) = lineKeys lines :=
  lineKeys_withRows (optional_priceLines _ _)

theorem lineKeys_retotal (settings : TaxSettings) (row : BillRow) (lines : List BillLine) :
    lineKeys (retotal settings row lines).2 = lineKeys lines := by
  simp only [retotal, taxForLines_eq]
  refine lineKeys_withRows ?_
  simp [Function.comp_def, LineRow.withTax]

/-- Lines priced and taxed again add up. -/
theorem retotal_repriced (settings : TaxSettings) (row row' : BillRow) (hd : row'.discount = row.discount)
    (lines : List BillLine) :
    TermsAddUp (retotal settings row' (repriced row lines)).1 (lineRows (retotal settings row' (repriced row lines)).2) := by
  refine retotal_addUp settings ?_
  rw [lineRows_repriced, hd, priceLines_priceLines]

theorem newLines_ok {parent : LineParent} {inputs : List (Id × LineInput)} {document : Option Discounted}
    {lines : List BillLine} (h : newLines parent inputs document = .ok lines) :
    lineRows lines = priceLines (inputs.map fun x => x.2.line) document ∧ lines.map (·.id) = inputs.map (·.1) ∧
      (parent ≠ .estimate → ∀ l ∈ lines, l.row.optional = false) := by
  simp only [newLines, replaceLines] at h
  split at h
  · cases h
  · next hopt =>
    cases h
    have hlen : (priceLines ((inputs.map (·.2)).map LineInput.line) document).length = inputs.length := by simp
    have hrows : lineRows (List.zipWith (fun inp r => ⟨inp.1, r⟩) inputs
        (priceLines ((inputs.map (·.2)).map LineInput.line) document)) =
        priceLines ((inputs.map (·.2)).map LineInput.line) document := by
      have hm := map_zipWith_right (fun (inp : Id × LineInput) (r : LineRow) => (⟨inp.1, r⟩ : BillLine)) (·.row) id
        (fun _ _ => rfl) hlen
      rwa [List.map_id] at hm
    refine ⟨by rw [hrows, List.map_map]; rfl,
      map_zipWith_left (fun (inp : Id × LineInput) (r : LineRow) => (⟨inp.1, r⟩ : BillLine)) _ _ (fun _ _ => rfl) hlen,
      fun hp l hl => ?_⟩
    have hmem : l.row ∈ priceLines ((inputs.map (·.2)).map LineInput.line) document :=
      hrows ▸ List.mem_map.2 ⟨l, hl, rfl⟩
    have ho : l.row.optional ∈ ((inputs.map (·.2)).map LineInput.line).map (·.optional) :=
      optional_priceLines _ document ▸ List.mem_map.2 ⟨l.row, hmem, rfl⟩
    simp only [List.map_map, List.mem_map, Function.comp_apply] at ho
    obtain ⟨x, hx, he⟩ := ho
    rw [← he]
    by_contra htrue
    refine hopt ⟨hp, List.any_eq_true.2 ⟨x.2, List.mem_map.2 ⟨x, hx, rfl⟩, ?_⟩⟩
    simpa [LineInput.line] using htrue

/-- New lines, taxed, add up. -/
theorem retotal_newLines {parent : LineParent} {inputs : List (Id × LineInput)} {row : BillRow} {lines : List BillLine}
    (settings : TaxSettings) (h : newLines parent inputs (some row.discount) = .ok lines) :
    TermsAddUp (retotal settings row lines).1 (lineRows (retotal settings row lines).2) := by
  refine retotal_addUp settings ?_
  rw [(newLines_ok h).1, priceLines_priceLines]

theorem required_retotal {lines : List BillLine} (h : ∀ l ∈ lines, l.row.optional = false) (settings : TaxSettings)
    (row : BillRow) : ∀ l ∈ (retotal settings row lines).2, l.row.optional = false := by
  intro l hl
  have hmem : (l.id, l.row.optional) ∈ lineKeys lines :=
    lineKeys_retotal settings row lines ▸ List.mem_map.2 ⟨l, hl, rfl⟩
  obtain ⟨l', hl', he⟩ := List.mem_map.1 hmem
  rw [← (Prod.mk.inj he).2]
  exact h l' hl'

theorem edited_leaves {read : BillRow} {doc : BillDocument} {discount : Option (Option DiscountIn)}
    {inputs : Option (List (Id × LineInput))} {settings : TaxSettings} {w : BillWrite} (hd : doc.Sound)
    (hs : read.SameTerms doc.row) (hids : (lineInputIds inputs).Nodup)
    (h : edited doc.parent read doc.lines discount inputs settings = .ok w) : w.Leaves doc := by
  unfold edited at h
  cases inputs with
  | none =>
    cases h
    exact BillWrite.leaves_updated hs rfl hd
      ((lineKeys_retotal settings (read.withDiscount discount) _).trans (lineKeys_repriced _ _))
      (retotal_repriced settings _ _ rfl _)
  | some inputs =>
    cases hnew : newLines doc.parent inputs (some (read.withDiscount discount).discount) with
    | error e =>
      simp only [hnew] at h
      cases h
    | ok lines =>
      simp only [hnew] at h
      cases h
      obtain ⟨-, hid, hopt⟩ := newLines_ok hnew
      refine BillWrite.leaves_replaced hs rfl (retotal_newLines settings hnew) ?_ fun hp => required_retotal (hopt hp) _ _
      rw [ids_of_lineKeys (lineKeys_retotal settings (read.withDiscount discount) _), hid]
      exact hids

/-- Without add-ons every line counts toward the document. -/
theorem retotal_required {settings : TaxSettings} {row : BillRow} {lines : List BillLine}
    (h : ∀ l ∈ lines, l.row.optional = false) :
    retotal settings row lines =
      (applyTotals row (taxForLines settings (lineRows lines)).2, withRows lines (taxForLines settings (lineRows lines)).1) := by
  have hall : (lineRows lines).filter LineRow.included = lineRows lines := by
    refine List.filter_eq_self.2 fun r hr => ?_
    obtain ⟨l, hl, rfl⟩ := List.mem_map.1 hr
    simp [LineRow.included, h l hl]
  simp only [retotal, taxForLines_eq, includedTotals_eq, hall]

theorem issueInvoice_eq {settings : TaxSettings} {row : BillRow} {lines : List BillLine}
    (h : ∀ l ∈ lines, l.row.optional = false) :
    issueInvoice settings row lines =
      ({ (retotal settings row lines).1 with status := .sent }, (retotal settings row lines).2) := by
  rw [retotal_required h]
  rfl

theorem TermsAddUp.status {row : BillRow} {rows : List LineRow} (h : TermsAddUp row rows) (status : BillStatus) :
    TermsAddUp { row with status := status } rows := ⟨h.subtotal, h.tax, h.total, h.priced⟩

/-- A document's lines taxed again at other settings. -/
theorem BillDocument.Sound.retotal_addUp {doc : BillDocument} (hd : doc.Sound) (settings : TaxSettings) :
    TermsAddUp (retotal settings doc.row doc.lines).1 (lineRows (retotal settings doc.row doc.lines).2) :=
  ClientBridge.retotal_addUp settings hd.addUp.priced

theorem reprice_leaves {doc : BillDocument} (hd : doc.Sound) (settings : TaxSettings) :
    (doc.reprice settings).Leaves doc :=
  BillWrite.leaves_updated (.refl _) rfl hd (lineKeys_retotal settings doc.row _) (hd.retotal_addUp settings)

theorem tickAddons_ok {row : BillRow} {lines ticked : List BillLine} {lineIds : List Id}
    (h : tickAddons row lines lineIds = .ok ticked) :
    lineKeys ticked = lineKeys lines ∧ ∃ lines', ticked = repriced row lines' := by
  unfold tickAddons at h
  split at h
  · cases h
    refine ⟨?_, _, rfl⟩
    rw [lineKeys_repriced]
    simp [lineKeys, Function.comp_def]
  · cases h

/-- A command that reads the document under its lock leaves it adding up. -/
theorem BillCommand.leaves {settings : TaxSettings} {doc : BillDocument} {cmd : BillCommand} {w : BillWrite}
    (hd : doc.Sound) (hids : cmd.newIds.Nodup) (h : BillCommand.run settings doc cmd = .ok w) : w.Leaves doc := by
  cases cmd with
  | update discount inputs =>
    simp only [BillCommand.run] at h
    split at h
    · next hp =>
      split at h
      · rw [← hp] at h
        exact edited_leaves hd (.refl _) hids h
      · cases h
    · next hp =>
      split at h
      · rw [← hp] at h
        exact edited_leaves hd (.refl _) hids h
      · cases h
    · cases h
  | send expired =>
    simp only [BillCommand.run] at h
    split at h
    · next hp =>
      split at h
      · cases h
      · split at h
        · rw [issueInvoice_eq (hd.required (by simp [hp]))] at h
          cases h
          exact BillWrite.leaves_updated (.refl _) rfl hd (lineKeys_retotal settings doc.row _)
            ((hd.retotal_addUp settings).status .sent)
        · cases h
          exact BillWrite.leaves_row rfl (.refl _) hd
    · split at h
      · cases h
      · split at h
        · cases h
          exact BillWrite.leaves_updated (.refl _) rfl hd (lineKeys_retotal settings doc.row _)
            ((hd.retotal_addUp settings).status .sent)
        · cases h
          exact BillWrite.leaves_row rfl (.refl _) hd
    · cases h
  | accept expired lineIds totalCents =>
    simp only [BillCommand.run] at h
    split at h
    · cases h
    · split at h
      · cases h
      · cases htick : tickAddons doc.row doc.lines lineIds with
        | error e =>
          simp only [htick] at h
          cases h
        | ok ticked =>
          simp only [htick] at h
          split at h
          · cases h
          · cases h
            obtain ⟨hkeys, lines', rfl⟩ := tickAddons_ok htick
            exact BillWrite.leaves_updated (.refl _) rfl hd ((lineKeys_retotal settings doc.row _).trans hkeys)
              ((retotal_repriced settings _ _ rfl _).status .accepted)
  | decline expired =>
    simp only [BillCommand.run] at h
    split at h
    · cases h
    · cases hans : doc.answerable expired with
      | error e =>
        simp only [hans] at h
        cases h
      | ok u =>
        simp only [hans] at h
        cases h
        exact BillWrite.leaves_row rfl ⟨rfl, rfl, rfl, rfl⟩ hd

/-- A command that loaded the document's row early leaves it adding up, if the row's terms are still as
it loaded them. -/
theorem EarlyCommand.leaves {settings : TaxSettings} {row : BillRow} {doc : BillDocument} {cmd : EarlyCommand}
    {w : BillWrite} (hd : doc.Sound) (hids : cmd.newIds.Nodup) (hparent : ∀ d i, cmd = .updateOrder d i → doc.parent = .order)
    (hs : cmd ≠ .declineEstimate → row.SameTerms doc.row) (h : EarlyCommand.run settings row doc.lines cmd = .ok w) :
    w.Leaves doc := by
  cases cmd with
  | updateOrder discount inputs =>
    rw [EarlyCommand.run, ← hparent _ _ rfl] at h
    exact edited_leaves hd (hs (by simp)) hids h
  | acceptEstimate =>
    cases h
    exact BillWrite.leaves_updated (hs (by simp)) rfl hd
      ((lineKeys_retotal settings { row with status := .accepted } _).trans (lineKeys_repriced _ _))
      (retotal_repriced settings _ _ rfl _)
  | declineEstimate =>
    cases h
    exact BillWrite.leaves_row rfl ⟨rfl, rfl, rfl, rfl⟩ hd

/-! ## New documents -/

/-- A document of priced lines, once they are taxed. -/
theorem retotal_sound {parent : LineParent} {row : BillRow} {lines : List BillLine} (settings : TaxSettings)
    (hp : priceLines (lineRows lines) (some row.discount) = lineRows lines) (hid : (lines.map (·.id)).Nodup)
    (hopt : parent ≠ .estimate → ∀ l ∈ lines, l.row.optional = false) :
    BillDocument.Sound ⟨parent, (retotal settings row lines).1, (retotal settings row lines).2⟩ where
  addUp := retotal_addUp settings hp
  lineIds := by
    rw [ids_of_lineKeys (lineKeys_retotal settings row _)]
    exact hid
  required hne := required_retotal (hopt hne) settings row

theorem BillDocument.Sound.status {doc : BillDocument} (h : doc.Sound) (status : BillStatus) :
    BillDocument.Sound { doc with row := { doc.row with status := status } } :=
  ⟨h.addUp.status status, h.lineIds, h.required⟩

theorem created_sound {parent : LineParent} {discount : Option DiscountIn} {inputs : List (Id × LineInput)}
    {settings : TaxSettings} {send : Bool} {doc : BillDocument} (hids : (inputs.map (·.1)).Nodup)
    (h : created parent discount inputs settings send = .ok doc) : doc.Sound := by
  unfold created at h
  generalize ({ status := if parent = .order then .open else .draft, discount := setDiscount discount } : BillRow)
    = row at h
  cases hnew : newLines parent inputs (some row.discount) with
  | error e =>
    simp only [hnew] at h
    cases h
  | ok lines =>
    simp only [hnew] at h
    obtain ⟨hrows, hid, hopt⟩ := newLines_ok hnew
    have hp : priceLines (lineRows lines) (some row.discount) = lineRows lines := by rw [hrows, priceLines_priceLines]
    have hdraft := retotal_sound settings hp (hid ▸ hids) hopt
    -- sending totals the draft once more
    have hsent := (retotal_sound settings hdraft.addUp.priced hdraft.lineIds hdraft.required).status .sent
    split at h
    · split at h
      · cases h
        exact hsent
      · cases h
    · split at h
      · cases h
      · rw [issueInvoice_eq (hdraft.required (by simp))] at h
        cases h
        exact hsent
    · cases h
      exact hdraft

theorem orderedOnline_sound {inputs : List (Id × LineInput)} {settings : TaxSettings} {doc : BillDocument}
    (hids : (inputs.map (·.1)).Nodup) (h : orderedOnline inputs settings = .ok doc) : doc.Sound := by
  unfold orderedOnline at h
  cases hnew : newLines .order inputs none with
  | error e =>
    simp only [hnew] at h
    cases h
  | ok lines =>
    simp only [hnew] at h
    obtain ⟨hrows, hid, hopt⟩ := newLines_ok hnew
    -- no discount on the order prices as no document does
    have hp : priceLines (lineRows lines) (some ⟨none, none⟩) = lineRows lines := by
      rw [hrows]
      exact priceLines_priceLines _ none
    have hs := @retotal_sound .order { status := .open, discount := ⟨none, none⟩ } lines settings hp (hid ▸ hids) hopt
    rw [retotal_required (hopt (by simp))] at hs
    cases h
    exact hs

/-- A line without discounts costs what it comes to. -/
theorem priceLines_plain {r : LineRow} (hd : r.discount = ⟨none, none⟩) (hc : r.discountCents = 0)
    (hs : r.saleDiscountCents = 0) (ha : r.amountCents = r.grossCents) :
    priceLines [r] (some ⟨none, none⟩) = [r] := by
  have hall : documentShares [r] (some ⟨none, none⟩) = [0] := rfl
  rw [priceLines_eq, hall]
  show [r.price 0] = [r]
  obtain ⟨_, _, _, _, _, _, _, _, amount, _⟩ := r
  cases hd
  cases hc
  cases hs
  simpa [LineRow.price, LineRow.lessDiscount, LineRow.lessShare, discountOff, LineRow.grossCents] using ha.symm

/-- A price with its tax in it, split, is one line whose base and tax add up to it. -/
theorem recurringInvoice_sound (lineId : Id) (taxClass : TaxClass) (paid : Int) (settings : TaxSettings) :
    (recurringInvoice lineId taxClass paid settings).Sound := by
  have hbase : ∀ rates, (Tax.line { amountCents := paid, taxClass := taxClass } rates true).baseCents =
      paid - (Tax.line { amountCents := paid, taxClass := taxClass } rates true).taxCents := by
    intro rates
    simp only [Tax.line]
    split
    · exact (Int.sub_zero _).symm
    · rfl
  refine ⟨⟨?_, ?_, ?_, ?_⟩, ?_, ?_⟩
  · simp [recurringInvoice, applyTotals, computeTax, Tax.total, includedAmount, lineRows, LineRow.included, hbase]
  · simp [recurringInvoice, applyTotals, computeTax, Tax.total, includedTax, lineRows, LineRow.included]
  · simp [recurringInvoice, applyTotals, computeTax, Tax.total, includedAmount, includedTax, lineRows, LineRow.included,
      hbase]
  · exact priceLines_plain rfl rfl rfl (by rw [LineRow.grossCents_whole (n := 1) (by simp)]; simp)
  · simp [recurringInvoice]
  · simp [recurringInvoice]

/-! ## Transactions -/

variable {π : Type}

/-- The document is as an early command loaded it: its row when it is locked, and its lines too when an
accepted estimate is accepted again. -/
def Undisturbed (s : BillStore π) : BillPlace → BillPlace → Prop
  | .loaded _ _ .declineEstimate, _ => True
  | .loaded id row _, .writing _ => ∀ doc, s.docs id = some doc → row.SameTerms doc.row
  | .accepting id row lines, .idle => ∀ doc, s.docs id = some doc → row.SameTerms doc.row ∧ lines = doc.lines
  | _, _ => True

/-- A step that finds what it loaded early undisturbed. -/
def CalmStep [DecidableEq π] (p : π) (s : BillStore π) (x : BillPlace) (s' : BillStore π) (x' : BillPlace) : Prop :=
  BillStep p s x s' x' ∧ Undisturbed s x x'

/-- Writes under locks that will leave their documents adding up. -/
def WritesSound (p : π) (s : BillStore π) (writes : List (Id × BillWrite)) : Prop :=
  writes.Pairwise (fun x y => x.1 ≠ y.1) ∧
    ∀ x ∈ writes, s.lock x.1 = some p ∧ ∃ doc, s.docs x.1 = some doc ∧ x.2.Leaves doc

/-- What a transaction knows at its place. -/
def HoldsDocuments (p : π) (s : BillStore π) : BillPlace → Prop
  | .writing writes => WritesSound p s writes
  | .repricing _ writes => WritesSound p s writes
  | .loaded id _ cmd => ∀ d i, cmd = .updateOrder d i → ∃ doc, s.docs id = some doc ∧ doc.parent = .order
  | _ => True

def AllSound (s : BillStore π) : Prop := ∀ id doc, s.docs id = some doc → doc.Sound

/-- What a step of `p` leaves to the others: their locks, the documents they hold, and each document's kind. -/
structure LeavesDocuments (p : π) (s s' : BillStore π) : Prop where
  lock : ∀ {q id}, q ≠ p → s.lock id = some q → s'.lock id = some q
  held : ∀ {q id doc}, q ≠ p → s.lock id = some q → s.docs id = some doc → s'.docs id = some doc
  parent : ∀ {id doc}, s.docs id = some doc → ∃ doc', s'.docs id = some doc' ∧ doc'.parent = doc.parent

section
variable {p q : π} {s s' : BillStore π}

theorem LeavesDocuments.refl (p : π) (s : BillStore π) : LeavesDocuments p s s :=
  ⟨fun _ h => h, fun _ _ h => h, fun h => ⟨_, h, rfl⟩⟩

theorem WritesSound.leaves {writes : List (Id × BillWrite)} (hw : WritesSound q s writes)
    (h : LeavesDocuments p s s') (hq : q ≠ p) : WritesSound q s' writes := by
  refine ⟨hw.1, fun x hx => ?_⟩
  obtain ⟨hl, doc, hd, hleaves⟩ := hw.2 x hx
  exact ⟨h.lock hq hl, doc, h.held hq hl hd, hleaves⟩

theorem HoldsDocuments.leaves {x : BillPlace} (hx : HoldsDocuments q s x) (h : LeavesDocuments p s s') (hq : q ≠ p) :
    HoldsDocuments q s' x := by
  cases x with
  | writing writes => exact WritesSound.leaves hx h hq
  | repricing settings writes => exact WritesSound.leaves hx h hq
  | loaded id row cmd =>
    intro d i hc
    obtain ⟨doc, hd, hp⟩ := hx d i hc
    obtain ⟨doc', hd', hp'⟩ := h.parent hd
    exact ⟨doc', hd', hp'.trans hp⟩
  | idle => trivial
  | accepting id row lines => trivial
  | rolledBack => trivial

theorem LeavesDocuments.lockDoc {id : Id} (h : s.lock id = none) : LeavesDocuments p s (s.lockDoc p id) where
  lock {q id'} hq hl := by
    have hne : id' ≠ id := by
      rintro rfl
      rw [h] at hl
      cases hl
    exact (Function.update_of_ne hne _ _).trans hl
  held _ _ hd := hd
  parent hd := ⟨_, hd, rfl⟩

theorem LeavesDocuments.release [DecidableEq π] (h : LeavesDocuments p s s') : LeavesDocuments p s (s'.release p) where
  lock {q id} hq hl := by
    have hl := h.lock hq hl
    show (if s'.lock id = some p then none else s'.lock id) = some q
    rw [hl, if_neg fun hp => hq (Option.some.inj hp)]
  held := h.held
  parent := h.parent

/-- A document no other transaction holds may be written. -/
theorem LeavesDocuments.put {id : Id} {doc : BillDocument} (hl : s.lock id = none ∨ s.lock id = some p)
    (hp : ∀ old, s.docs id = some old → doc.parent = old.parent) : LeavesDocuments p s (s.put id doc) where
  lock _ h := h
  held {q id' old} hq hlock hd := by
    have hne : id' ≠ id := by
      rintro rfl
      rcases hl with hl | hl
      · rw [hl] at hlock
        cases hlock
      · exact hq (Option.some.inj (hlock.symm.trans hl))
    exact (Function.update_of_ne hne _ _).trans hd
  parent {id' old} hd := by
    by_cases hne : id' = id
    · subst hne
      exact ⟨doc, Function.update_self _ _ _, hp old hd⟩
    · exact ⟨old, (Function.update_of_ne hne _ _).trans hd, rfl⟩

theorem LeavesDocuments.trans {s'' : BillStore π} (h : LeavesDocuments p s s') (h' : LeavesDocuments p s' s'') :
    LeavesDocuments p s s'' where
  lock hq hl := h'.lock hq (h.lock hq hl)
  held hq hl hd := h'.held hq (h.lock hq hl) (h.held hq hl hd)
  parent hd := by
    obtain ⟨doc', hd', hp'⟩ := h.parent hd
    obtain ⟨doc'', hd'', hp''⟩ := h'.parent hd'
    exact ⟨doc'', hd'', hp''.trans hp'⟩

theorem BillWrite.flush_parent {w : BillWrite} {doc doc' : BillDocument} (h : w.flush doc = some doc') :
    doc'.parent = doc.parent := by
  unfold BillWrite.flush at h
  split at h
  · cases h
    rfl
  · split at h
    · cases h
      rfl
    · cases h

theorem AllSound.put (h : AllSound s) {id : Id} {doc : BillDocument} (hd : doc.Sound) : AllSound (s.put id doc) := by
  intro id' doc' hd'
  by_cases hne : id' = id
  · subst hne
    have he : (s.put id' doc).docs id' = some doc := Function.update_self _ _ _
    cases he.symm.trans hd'
    exact hd
  · exact h id' doc' ((Function.update_of_ne hne _ _).symm.trans hd')

/-- One write of a document that no other transaction holds. -/
theorem put_flush (h : AllSound s) {id : Id} {w : BillWrite} {doc doc' : BillDocument}
    (hl : s.lock id = none ∨ s.lock id = some p) (hd : s.docs id = some doc) (hf : w.flush doc = some doc')
    (hs : doc'.Sound) : AllSound (s.put id doc') ∧ LeavesDocuments p s (s.put id doc') := by
  refine ⟨h.put hs, .put hl fun old hold => ?_⟩
  cases hd.symm.trans hold
  exact BillWrite.flush_parent hf

/-- A commit leaves every document adding up. -/
theorem write_sound {writes : List (Id × BillWrite)} (h : AllSound s) (hw : WritesSound p s writes)
    (hs : s.write writes = some s') : AllSound s' ∧ LeavesDocuments p s s' := by
  induction writes generalizing s with
  | nil =>
    cases hs
    exact ⟨h, .refl p _⟩
  | cons x writes ih =>
    obtain ⟨hpair, hall⟩ := hw
    obtain ⟨hne, hpair⟩ := List.pairwise_cons.1 hpair
    obtain ⟨hl, doc, hd, doc', hf, hsound⟩ := hall x List.mem_cons_self
    have hbind : (s.docs x.1).bind x.2.flush = some doc' := by
      rw [hd]
      exact hf
    rw [BillStore.write, hbind] at hs
    obtain ⟨hput, hleaves⟩ := put_flush h (.inr hl) hd hf hsound
    have hrest : WritesSound p (s.put x.1 doc') writes := by
      refine ⟨hpair, fun y hy => ?_⟩
      obtain ⟨hly, docy, hdy, hfy⟩ := hall y (List.mem_cons_of_mem x hy)
      exact ⟨hly, docy, (Function.update_of_ne (hne y hy).symm _ _).trans hdy, hfy⟩
    obtain ⟨h', hleaves'⟩ := ih hput hrest hs
    exact ⟨h', hleaves.trans hleaves'⟩

variable [DecidableEq π]

/-- What one step keeps. -/
theorem CalmStep.keeps {x x' : BillPlace} (hs : CalmStep p s x s' x') (h : AllSound s) (hx : HoldsDocuments p s x) :
    LeavesDocuments p s s' ∧ AllSound s' ∧ HoldsDocuments p s' x' := by
  obtain ⟨hs, hcalm⟩ := hs
  have hnew : ∀ {id : Id} {doc : BillDocument}, s.docs id = none → doc.Sound →
      LeavesDocuments p s (s.put id doc) ∧ AllSound (s.put id doc) := by
    intro id doc hid hd
    refine ⟨⟨fun _ hl => hl, fun {q id' old} _ _ hold => ?_, fun {id' old} hold => ⟨old, ?_, rfl⟩⟩, h.put hd⟩
    all_goals
      have hne : id' ≠ id := by
        rintro rfl
        rw [hid] at hold
        cases hold
      exact (Function.update_of_ne hne _ _).trans hold
  cases hs with
  | create hid hids hc =>
    obtain ⟨h1, h2⟩ := hnew hid (created_sound hids hc)
    exact ⟨h1, h2, trivial⟩
  | orderOnline hid hids hc =>
    obtain ⟨h1, h2⟩ := hnew hid (orderedOnline_sound hids hc)
    exact ⟨h1, h2, trivial⟩
  | recur hid =>
    obtain ⟨h1, h2⟩ := hnew hid (recurringInvoice_sound _ _ _ _)
    exact ⟨h1, h2, trivial⟩
  | lock hl hd hids hc =>
    refine ⟨.lockDoc hl, h, List.pairwise_singleton _ _, fun y hy => ?_⟩
    rw [List.mem_singleton.1 hy]
    exact ⟨Function.update_self _ _ _, _, hd, BillCommand.leaves (h _ _ hd) hids hc⟩
  | load hd hc =>
    refine ⟨.refl p s, h, fun d i he => ⟨_, hd, ?_⟩⟩
    subst he
    simpa [EarlyCommand.starts] using (of_decide_eq_true hc).1
  | @lockLoaded id row doc settings cmd w hl hd hst hids hc =>
    refine ⟨.lockDoc hl, h, List.pairwise_singleton _ _, fun y hy => ?_⟩
    rw [List.mem_singleton.1 hy]
    refine ⟨Function.update_self _ _ _, doc, hd, EarlyCommand.leaves (h _ _ hd) hids (fun d i he => ?_) (fun hne => ?_) hc⟩
    · obtain ⟨doc', hd', hp⟩ := hx d i he
      cases hd.symm.trans hd'
      exact hp
    · cases cmd with
      | updateOrder d i => exact hcalm doc hd
      | acceptEstimate => exact hcalm doc hd
      | declineEstimate => exact absurd rfl hne
  | acceptAgain hd hst => exact ⟨.refl p s, h, trivial⟩
  | @acceptedAgain id row lines settings w _ hl hc hw =>
    cases hd : s.docs id with
    | none =>
      rw [BillStore.write, hd] at hw
      cases hw
    | some doc =>
      obtain ⟨hrow, rfl⟩ := hcalm doc hd
      obtain ⟨doc', hf, hsound⟩ := @EarlyCommand.leaves settings row doc .acceptEstimate w (h _ _ hd)
        List.nodup_nil (by simp) (fun _ => hrow) hc
      rw [BillStore.write, hd, show (some doc).bind w.flush = some doc' from hf] at hw
      cases hw
      obtain ⟨h1, h2⟩ := put_flush h (.inl hl) hd hf hsound
      exact ⟨h2, h1, trivial⟩
  | reprice => exact ⟨.refl p s, h, List.Pairwise.nil, fun y hy => absurd hy List.not_mem_nil⟩
  | @repriceNext id doc settings writes hl hd ho =>
    obtain ⟨hpair, hall⟩ := hx
    refine ⟨.lockDoc hl, h, ?_, fun y hy => ?_⟩
    · refine List.pairwise_append.2 ⟨hpair, List.pairwise_singleton _ _, fun y hy z hz he => ?_⟩
      rw [List.mem_singleton.1 hz] at he
      have hly := (hall y hy).1
      rw [he, hl] at hly
      cases hly
    · rcases List.mem_append.1 hy with hy | hy
      · obtain ⟨hly, docy, hdy, hfy⟩ := hall y hy
        refine ⟨?_, docy, hdy, hfy⟩
        have hne : y.1 ≠ id := by
          intro he
          rw [he, hl] at hly
          cases hly
        exact (Function.update_of_ne hne _ _).trans hly
      · rw [List.mem_singleton.1 hy]
        exact ⟨Function.update_self _ _ _, doc, hd, reprice_leaves (h _ _ hd) settings⟩
  | repriced => exact ⟨.refl p s, h, hx⟩
  | commit hw =>
    obtain ⟨h1, h2⟩ := write_sound h hx hw
    exact ⟨h2.release, h1, trivial⟩
  | rollback => exact ⟨(LeavesDocuments.refl p s).release, h, trivial⟩

/-- The stored totals are the sums over the lines included, and each line's amount is the one
`price_lines` gives. -/
def BillDocument.AddsUp (doc : BillDocument) : Prop :=
  doc.row.subtotalCents = includedAmount (lineRows doc.lines) ∧
    doc.row.taxTotalCents = includedTax (lineRows doc.lines) ∧
    doc.row.totalCents = includedAmount (lineRows doc.lines) + includedTax (lineRows doc.lines) ∧
    (priceLines (lineRows doc.lines) (some doc.row.discount)).map (·.amountCents) =
      (lineRows doc.lines).map (·.amountCents)

theorem documents_kept : Kept (fun p : π => CalmStep p) AllSound fun p => HoldsDocuments p where
  store hs hI hJ := (hs.keeps hI hJ).2.1
  own hs hI hJ := (hs.keeps hI hJ).2.2
  others hs hq hI hJ hJq := hJq.leaves (hs.keeps hI hJ).1 hq

/-- **A document's totals are its lines' totals**, in every run in which the documents that sale edits and
staff acceptances load stay undisturbed until they hold them. -/
theorem totals_add_up {w w' : World π (BillStore π) BillPlace} {ps : List π} (hidle : ∀ p, w.place p = .idle)
    (hempty : ∀ id, w.store.docs id = none) (hr : Run (Interleaved fun p => CalmStep p) w ps w') {id : Id}
    {doc : BillDocument} (hd : w'.store.docs id = some doc) :
    doc.AddsUp := by
  have hstart : Knows AllSound (fun p => HoldsDocuments p) w := by
    refine ⟨fun id doc hd => ?_, fun p => ?_⟩
    · rw [hempty] at hd
      cases hd
    · rw [hidle]
      trivial
  have h := (documents_kept.run hr hstart).1 id doc hd
  exact ⟨h.addUp.subtotal, h.addUp.tax, h.addUp.total, by rw [h.addUp.priced]⟩

end

/-! ## A sale of 100.00 -/

def hundredLine : LineInput := ⟨1, 10000, .standard, false, none, one_quantity_pos, by norm_num⟩

def tenPercent : DiscountIn := ⟨.percent, 10, by norm_num, by norm_num⟩

def noTax : TaxSettings := ⟨[], false⟩

def hundredRow (saleDiscountCents amountCents : Int) : LineRow :=
  { hundredLine.line with saleDiscountCents := saleDiscountCents, amountCents := amountCents }

def saleRow (discount : Discounted) (totalCents : Int) : BillRow := ⟨.open, discount, totalCents, 0, totalCents⟩

def fullSale : BillDocument := ⟨.order, saleRow ⟨none, none⟩ 10000, [⟨"line", hundredRow 0 10000⟩]⟩

/-- The sale with a tenth off. -/
def lessSale : BillDocument :=
  ⟨.order, saleRow (setDiscount (some tenPercent)) 9000, [⟨"line", hundredRow 1000 9000⟩]⟩

theorem fullSale_created : created .order none [("line", hundredLine)] noTax false = .ok fullSale := by decide +kernel

theorem lessSale_edited : EarlyCommand.run noTax fullSale.row fullSale.lines (.updateOrder (some (some tenPercent)) none) =
    .ok ⟨fullSale.row, lessSale.row, .updated (fullSale.lines.zip lessSale.lines)⟩ := by decide +kernel

theorem write_single {π : Type} {s : BillStore π} {id : Id} {w : BillWrite} {doc doc' : BillDocument}
    (hd : s.docs id = some doc) (hf : w.flush doc = some doc') : s.write [(id, w)] = some (s.put id doc') := by
  rw [BillStore.write, hd, show (some doc).bind w.flush = some doc' from hf]
  rfl

def noDocuments : World Bool (BillStore Bool) BillPlace := ⟨⟨fun _ => none, fun _ => none⟩, fun _ => .idle⟩

/-- A discount of a tenth is given, and the totals follow. -/
theorem hundredSale_discounted : ∃ w' : World Bool (BillStore Bool) BillPlace,
    w'.store.docs "sale" = some lessSale ∧ lessSale.AddsUp := by
  have hrun : ∃ w', Run (Interleaved fun p => CalmStep p) noDocuments [true, false, false, false] w' ∧
      w'.store.docs "sale" = some lessSale := by
    refine ⟨_,
      .cons (.from rfl ⟨@BillStep.create _ _ _ _ "sale" _ .order none [("line", hundredLine)] noTax false rfl
        (by decide) fullSale_created, trivial⟩)
      (.cons (.from rfl ⟨@BillStep.load _ _ _ _ "sale" _ (.updateOrder (some (some tenPercent)) none) rfl rfl, trivial⟩)
      (.cons (.from rfl ⟨.lockLoaded rfl rfl (by simp) (by decide) lessSale_edited, ?_⟩)
      (.cons (.from rfl ⟨.commit (@write_single _ _ "sale" _ fullSale lessSale rfl (by decide +kernel)), trivial⟩) .nil))), ?_⟩
    · intro doc hd
      cases hd
      exact .refl _
    · rfl
  obtain ⟨w', hrun, hdoc⟩ := hrun
  exact ⟨w', hdoc, totals_add_up (fun _ => rfl) (fun _ => rfl) hrun hdoc⟩

/-- A sale that has the discount, while its line is priced without it. -/
def staleSale : BillDocument := { lessSale with lines := fullSale.lines }

theorem fullSale_repriced : EarlyCommand.run noTax fullSale.row lessSale.lines (.updateOrder none none) =
    .ok ⟨fullSale.row, fullSale.row, .updated (lessSale.lines.zip fullSale.lines)⟩ := by decide +kernel

/-- One member gives the discount while another, who loaded the sale before, changes its note. -/
theorem note_over_discount : ¬∀ (ps : List Bool) (w' : World Bool (BillStore Bool) BillPlace),
    Run (Interleaved fun p => BillStep p) noDocuments ps w' →
      ∀ id doc, w'.store.docs id = some doc → doc.AddsUp := by
  intro h
  have hadd := h _ _
    (.cons (.from (p := true) rfl (@BillStep.create _ _ _ _ "sale" _ .order none [("line", hundredLine)] noTax false rfl
      (by decide) fullSale_created))
    (.cons (.from (p := true) rfl (@BillStep.load _ _ _ _ "sale" _ (.updateOrder none none) rfl rfl))
    (.cons (.from (p := false) rfl (@BillStep.load _ _ _ _ "sale" _ (.updateOrder (some (some tenPercent)) none) rfl rfl))
    (.cons (.from (p := false) rfl (.lockLoaded rfl rfl (by simp) (by decide) lessSale_edited))
    (.cons (.from (p := false) rfl (.commit (@write_single _ _ "sale" _ fullSale lessSale rfl (by decide +kernel))))
    (.cons (.from (p := true) rfl (.lockLoaded rfl rfl (by simp) (by decide) fullSale_repriced))
    (.cons (.from (p := true) rfl (.commit (@write_single _ _ "sale" _ lessSale staleSale rfl (by decide +kernel))))
      .nil))))))) "sale" staleSale rfl
  exact absurd hadd.1 (by decide +kernel)

end ClientBridge
