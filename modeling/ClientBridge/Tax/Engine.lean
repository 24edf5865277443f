import ClientBridge.Library.Dict

/-!
# The tax engine: `compute_tax` and `split_fixed`

Every line is taxed by the components that apply to its class, each rounded to the cent on
its own; a document's taxes by code are the sums of its lines' (`Tax.total`).  A tax fixed
at issue is never recomputed: `splitFixed` only splits it by code.
-/

namespace ClientBridge

inductive TaxCode where
  | GST | HST | PST | QST | RST
  deriving DecidableEq, Repr

def TaxCode.index : TaxCode → Nat
  | .GST => 0
  | .HST => 1
  | .PST => 2
  | .QST => 3
  | .RST => 4

/-- The codes filed on the federal return (`FEDERAL_CODES`). -/
def TaxCode.isFederal : TaxCode → Bool
  | .GST | .HST => true
  | _ => false

inductive TaxClass where
  | standard | federalOnly | exempt
  deriving DecidableEq, Repr

/-- A rate charged under one code. -/
structure TaxComponent where
  jurisdiction : TaxCode
  rate : ℚ
  rate_nonneg : 0 ≤ rate
  deriving DecidableEq

structure TaxLine where
  amountCents : Int
  taxable : Bool := true
  taxClass : TaxClass := .standard
  deriving DecidableEq, Repr

structure LineTax where
  baseCents : Int
  taxCents : Int
  byJurisdiction : List (TaxCode × Int)
  deriving DecidableEq, Repr

structure TaxResult where
  subtotalCents : Int
  taxTotalCents : Int
  totalCents : Int
  byJurisdiction : List (TaxCode × Int)
  lines : List LineTax
  deriving DecidableEq, Repr

namespace Tax

/-- Whole cents, half away from zero (`_cents`). -/
def cents (value : ℚ) : Int :=
  let whole := ⌊|value| + 1 / 2⌋
  if 0 ≤ value then whole else -whole

/-- The components that tax a line of this class (`_applied`). -/
def applied (taxClass : TaxClass) (rates : List TaxComponent) : List TaxComponent :=
  match taxClass with
  | .exempt => []
  | .federalOnly => rates.filter (·.jurisdiction.isFederal)
  | .standard => rates

def whole (rates : List TaxComponent) : ℚ := (rates.map (·.rate)).sum

/-- One line's tax (`_line`). -/
def line (l : TaxLine) (allRates : List TaxComponent) (inclusive : Bool) : LineTax :=
  let rates := applied l.taxClass allRates
  if !l.taxable || rates.isEmpty then ⟨l.amountCents, 0, []⟩
  else
    let divisor := if inclusive then 1 + whole rates else 1
    let byJur := Dict.ofList (rates.map fun r => (r.jurisdiction, cents (l.amountCents * r.rate / divisor)))
    let tax := Dict.total byJur
    ⟨if inclusive then l.amountCents - tax else l.amountCents, tax, byJur⟩

/-- The lines' totals (`_total`). -/
def total (results : List LineTax) : TaxResult :=
  let subtotal := (results.map (·.baseCents)).sum
  let taxTotal := (results.map (·.taxCents)).sum
  ⟨subtotal, taxTotal, subtotal + taxTotal, Dict.collect (results.flatMap (·.byJurisdiction)), results⟩

/-- One line's tax as fixed at issue, split by code. -/
def fixedLine (l : TaxLine) (fixed : Int) (rates : List TaxComponent) : LineTax :=
  let rates := applied l.taxClass rates
  match rates.getLast? with
  | none => ⟨l.amountCents, fixed, []⟩
  | some last =>
    if fixed = 0 then ⟨l.amountCents, fixed, []⟩
    else
      let worked := line l rates false
      if worked.taxCents = fixed then worked
      else
        -- no rate in force is zero, so there is a whole to divide by
        let parts := Dict.ofList (rates.map fun r => (r.jurisdiction, cents (fixed * r.rate / whole rates)))
        -- the last code takes what rounding left over
        ⟨l.amountCents, fixed, Dict.bump parts last.jurisdiction (fixed - Dict.total parts)⟩

end Tax

/-- Per-line and document tax; a small supplier (`registered = false`) collects none. -/
def computeTax (lines : List TaxLine) (rates : List TaxComponent) (registered : Bool)
    (pricesIncludeTax : Bool) : TaxResult :=
  let active := if registered then rates else []
  Tax.total (lines.map fun l => Tax.line l active pricesIncludeTax)

/-- Each line's tax as fixed at issue, split by code with the rates in force then. -/
def splitFixed (lines : List (TaxLine × Int)) (rates : List TaxComponent) : TaxResult :=
  Tax.total (lines.map fun l => Tax.fixedLine l.1 l.2 rates)

example : Tax.cents (-5 / 2) = -3 := by decide +kernel

/-! ## Taxes by code -/

/-- What a result holds under one code. -/
def TaxResult.code (t : TaxResult) (c : TaxCode) : Int := Dict.get t.byJurisdiction c

theorem Tax.nodup_total (results : List LineTax) :
    (Dict.keys (Tax.total results).byJurisdiction).Nodup := Dict.nodup_collect _

/-- A document's tax under a code is the sum of its lines' taxes under it. -/
theorem Tax.code_total (results : List LineTax) (c : TaxCode) :
    (Tax.total results).code c = Dict.sumAt (results.flatMap (·.byJurisdiction)) c :=
  Dict.get_collect _ _

theorem nodup_splitFixed (lines : List (TaxLine × Int)) (rates : List TaxComponent) :
    (Dict.keys (splitFixed lines rates).byJurisdiction).Nodup := Tax.nodup_total _

/-- A tax fixed at issue stays the document's tax total, whatever its codes. -/
theorem taxTotal_splitFixed (lines : List (TaxLine × Int)) (rates : List TaxComponent) :
    (splitFixed lines rates).taxTotalCents = (lines.map (·.2)).sum := by
  have hl : ∀ l : TaxLine × Int, (Tax.fixedLine l.1 l.2 rates).taxCents = l.2 := by
    intro l
    cases h : (Tax.applied l.1.taxClass rates).getLast? with
    | none => simp [Tax.fixedLine, h]
    | some last =>
      by_cases h0 : l.2 = 0
      · simp [Tax.fixedLine, h, h0]
      · by_cases hw : (Tax.line l.1 (Tax.applied l.1.taxClass rates) false).taxCents = l.2 <;>
          simp [Tax.fixedLine, h, h0, hw]
  simp [splitFixed, Tax.total, hl, Function.comp_def]

end ClientBridge
