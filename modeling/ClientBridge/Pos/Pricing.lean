import ClientBridge.Billing.Pricing
import ClientBridge.Library.Doubles
import ClientBridge.Tax.Rates

/-!
# The device's prices: `priceSale`

The app prices a sale while it is rung up: line discounts, then the sale discount shared by
value, then tax per line on the net.  Numbers are doubles: a sum is rounded at each step
(`sumCents`), a quotient before `Math.floor` sees it (`floorDiv`).  Products and differences are
exact, as they are below `2 ^ 53`.
-/

namespace ClientBridge.Pos

/-- `Math.floor(a / b)`. -/
def floorDiv (a b : Int) : Int := ⌊Doubles.round 53 (a / b)⌋

/-- `Math.round(x)`. -/
def mathRound (x : ℚ) : Int := ⌊x + 1 / 2⌋

/-- `a + b`; a double from `2 ^ 53` on is whole too. -/
def addCents (a b : Int) : Int := ⌊Doubles.round 53 ((a + b : Int) : ℚ)⌋

/-- `reduce((a, b) => a + b, 0)`. -/
def sumCents (xs : List Int) : Int := xs.foldl addCents 0

/-- What a list adds up to on the way. -/
def runningSums : Int → List Int → List Int
  | _, [] => []
  | a, x :: xs => (a + x) :: runningSums (a + x) xs

/-! ## Taxes -/

def halfUp (num den : Int) : Int :=
  let whole := floorDiv (2 * |num| + den) (2 * den)
  if num < 0 then 0 - whole else whole

def appliedRates (taxClass : TaxClass) (rates : List DocRate) : List DocRate :=
  match taxClass with
  | .exempt => []
  | .federalOnly => rates.filter (·.code.isFederal)
  | .standard => rates

/-- One line's tax per code. -/
def lineTax (amountCents : Int) (taxClass : TaxClass) (rates : List DocRate) (inclusive : Bool) :
    List (TaxCode × Int) :=
  let applied := appliedRates taxClass rates
  let den := 1000000 + if inclusive then (applied.map (·.ppm)).sum else 0
  Dict.ofList (applied.map fun r => (r.code, halfUp (amountCents * r.ppm) den))

/-! ## Documents -/

structure PricedLine where
  amountCents : Int
  taxClass : TaxClass
  included : Bool
  deriving DecidableEq, Repr

structure DocLine where
  taxByCode : List (TaxCode × Int)
  taxCents : Int
  baseCents : Int
  deriving DecidableEq, Repr

structure PrintedDocTax where
  code : TaxCode
  baseCents : Int
  cents : Int
  deriving DecidableEq, Repr

structure DocPricing where
  lines : List DocLine
  taxes : List PrintedDocTax
  subtotalCents : Int
  taxCents : Int
  totalCents : Int
  deriving DecidableEq, Repr

/-- A discount as the app holds it; `value` is a whole percent or cents. -/
structure SaleDiscount where
  kind : DiscountKind
  value : Int
  deriving DecidableEq, Repr

/-- Places in the order they are topped up: `sort((a, b) => b.r - a.r || a.i - b.i)`. -/
def topUpOrder (total : Int) (weights : List Int) : List Nat :=
  let sum := sumCents weights
  let marked := (List.range weights.length).map fun i => (i, (total * weights.getD i 0).tmod sum)
  (marked.insertionSort fun a b => b.2 - a.2 < 0 ∨ (b.2 - a.2 = 0 ∧ a.1 ≤ b.1)).map (·.1)

/-- One cent more at each place until nothing is left. -/
def topUp : List Nat → Int → List Int → List Int
  | [], _, parts => parts
  | i :: order, left, parts =>
    if left ≤ 0 then parts else topUp order (left - 1) (Apportion.addAt parts i 1)

/-- The parts of `total` rounded down. -/
def floorParts (total : Int) (weights : List Int) : List Int :=
  weights.map fun w => floorDiv (total * w) (sumCents weights)

/-- Split `total` in whole cents by weight, largest remainder first. -/
def allocate (total : Int) (weights : List Int) : List Int :=
  if total = 0 ∨ sumCents weights ≤ 0 then weights.map fun _ => 0
  else
    let parts := floorParts total weights
    topUp (topUpOrder total weights) (total - sumCents parts) parts

/-- What a discount takes off `baseCents`, never more than the base. -/
def discountCents (baseCents : Int) (discount : Option SaleDiscount) : Int :=
  match discount with
  | none => 0
  | some discount =>
    if baseCents ≤ 0 then 0
    else
      let off := match discount.kind with
        | .percent => floorDiv (baseCents * discount.value * 2 + 100) 200
        | .amount => discount.value
      min baseCents (max 0 off)

def docLine (rates : List DocRate) (inclusive : Bool) (l : PricedLine) : DocLine :=
  let taxByCode := lineTax l.amountCents l.taxClass rates inclusive
  let taxCents := sumCents (taxByCode.map (·.2))
  ⟨taxByCode, taxCents, if inclusive then l.amountCents - taxCents else l.amountCents⟩

/-- The kept lines a rate is on. -/
def taxedBy (kept : List DocLine) (r : DocRate) : List DocLine := kept.filter fun t => r.code ∈ Dict.keys t.taxByCode

/-- What the kept lines owe under one rate. -/
def docTax (kept : List DocLine) (r : DocRate) : PrintedDocTax :=
  let on := taxedBy kept r
  ⟨r.code, sumCents (on.map (·.baseCents)), sumCents (on.map fun t => Dict.get t.taxByCode r.code)⟩

/-- Tax per line and per code over the included lines. -/
def priceDoc (lines : List PricedLine) (rates : List DocRate) (inclusive : Bool) : DocPricing :=
  let priced := lines.map (docLine rates inclusive)
  let kept := (lines.filter (·.included)).map (docLine rates inclusive)
  let taxes := (rates.map (docTax kept)).filter fun t => t.cents ≠ 0
  let subtotal := sumCents (kept.map (·.baseCents))
  let tax := sumCents (taxes.map (·.cents))
  ⟨priced, taxes, subtotal, tax, addCents subtotal tax⟩

def docRates (rates : List DocRate) (registered : Bool) : List DocRate :=
  if registered then rates else []

/-! ## Sales -/

structure SaleLine where
  unitAmountCents : Int
  quantity : ℚ
  taxClass : TaxClass
  discount : Option SaleDiscount
  deriving DecidableEq

inductive TipChoice where
  | none
  | percent (pct : Int)
  | custom (cents : Int)
  deriving DecidableEq, Repr

/-- A tip is worked out on the price before tax. -/
def tipCentsFor (tip : TipChoice) (subtotalCents : Int) : Int :=
  match tip with
  | .percent pct => mathRound (Doubles.round 53 ((subtotalCents * pct : Int) / 100))
  | .custom cents => max 0 cents
  | .none => 0

structure SalePricedLine where
  line : SaleLine
  grossCents : Int
  lineDiscountCents : Int
  saleDiscountShareCents : Int
  netCents : Int
  taxCents : Int
  deriving DecidableEq

structure SaleTotals where
  grossCents : Int
  lineDiscountCents : Int
  saleDiscountCents : Int
  discountCents : Int
  subtotalCents : Int
  taxes : List PrintedDocTax
  taxCents : Int
  tipCents : Int
  totalCents : Int
  depositCents : Int
  giftCardCents : Int
  dueCents : Int
  deriving DecidableEq, Repr

structure PricedSale where
  lines : List SalePricedLine
  totals : SaleTotals
  deriving DecidableEq

def SaleLine.gross (l : SaleLine) : Int :=
  mathRound (Doubles.round 53 (l.unitAmountCents * l.quantity))

def SaleLine.off (l : SaleLine) : Int := discountCents l.gross l.discount

def SaleLine.base (l : SaleLine) : Int := l.gross - l.off

/-- What the sale's own discount takes off its lines. -/
def saleOff (lines : List SaleLine) (saleDiscount : Option SaleDiscount) : Int :=
  discountCents (sumCents (lines.map SaleLine.base)) saleDiscount

def shares (lines : List SaleLine) (saleDiscount : Option SaleDiscount) : List Int :=
  allocate (saleOff lines saleDiscount) (lines.map SaleLine.base)

def nets (lines : List SaleLine) (saleDiscount : Option SaleDiscount) : List Int :=
  List.zipWith (fun b share => b - share) (lines.map SaleLine.base) (shares lines saleDiscount)

/-- The lines `priceSale` has taxed, each with its net. -/
def saleDocLines (lines : List SaleLine) (saleDiscount : Option SaleDiscount) : List PricedLine :=
  List.zipWith (fun l net => ⟨net, l.taxClass, true⟩) lines (nets lines saleDiscount)

def saleDoc (lines : List SaleLine) (saleDiscount : Option SaleDiscount) (rates : List DocRate)
    (registered : Bool) : DocPricing :=
  priceDoc (saleDocLines lines saleDiscount) (docRates rates registered) false

/-- Line discounts, then the sale discount shared by value, then tax per line on the net. -/
def priceSale (lines : List SaleLine) (saleDiscount : Option SaleDiscount) (rates : List DocRate)
    (registered : Bool) (tip : TipChoice) (depositCents giftCardCents : Int) : PricedSale :=
  let shares := shares lines saleDiscount
  let net := nets lines saleDiscount
  let doc := saleDoc lines saleDiscount rates registered
  let priced := lines.zipIdx.map fun (l, i) => {
    line := l, grossCents := l.gross, lineDiscountCents := l.off,
    saleDiscountShareCents := shares.getD i 0, netCents := net.getD i 0,
    taxCents := ((doc.lines.map (·.taxCents))).getD i 0 }
  let lineDiscount := sumCents (lines.map SaleLine.off)
  let saleOff := saleOff lines saleDiscount
  let tip := tipCentsFor tip doc.subtotalCents
  let total := addCents doc.totalCents tip
  let deposit := min depositCents doc.totalCents
  let gift := min giftCardCents (total - deposit)
  ⟨priced, {
    grossCents := sumCents (lines.map SaleLine.gross)
    lineDiscountCents := lineDiscount
    saleDiscountCents := saleOff
    discountCents := addCents lineDiscount saleOff
    subtotalCents := doc.subtotalCents
    taxes := doc.taxes
    taxCents := doc.taxCents
    tipCents := tip
    totalCents := total
    depositCents := deposit
    giftCardCents := gift
    dueCents := max 0 (total - deposit - gift) }⟩

/-! ## The products and sums on the way -/

def discountProducts (baseCents : Int) (discount : Option SaleDiscount) : List ℚ :=
  match discount with
  | some ⟨.percent, value⟩ => [((baseCents * value * 2 : Int) : ℚ)]
  | _ => []

def taxProducts (l : SaleLine) (net : Int) (rates : List DocRate) : List ℚ :=
  (appliedRates l.taxClass rates).map fun r => ((2 * |net * r.ppm| : Int) : ℚ)

/-- Every product `priceSale` forms of amounts, quantities, discounts and rates. -/
def saleProducts (lines : List SaleLine) (saleDiscount : Option SaleDiscount)
    (rates : List DocRate) (registered : Bool) : List ℚ :=
  (lines.map fun l => (l.unitAmountCents : ℚ) * l.quantity) ++
    (lines.flatMap fun l => discountProducts l.gross l.discount) ++
    discountProducts (sumCents (lines.map SaleLine.base)) saleDiscount ++
    (lines.map fun l => ((saleOff lines saleDiscount * l.base : Int) : ℚ)) ++
    (List.zipWith (fun l net => taxProducts l net (docRates rates registered)) lines
      (nets lines saleDiscount)).flatten

/-- Every sum on the way to a document's taxes and totals. -/
def docSums (lines : List PricedLine) (rates : List DocRate) (inclusive : Bool) : List Int :=
  let priced := lines.map (docLine rates inclusive)
  let kept := (lines.filter (·.included)).map (docLine rates inclusive)
  let doc := priceDoc lines rates inclusive
  (priced.flatMap fun t => runningSums 0 (t.taxByCode.map (·.2))) ++
    (rates.flatMap fun r => runningSums 0 ((taxedBy kept r).map fun t => Dict.get t.taxByCode r.code)) ++
    runningSums 0 (kept.map (·.baseCents)) ++ runningSums 0 (doc.taxes.map (·.cents)) ++
    [doc.subtotalCents + doc.taxCents]

/-- Every sum on the way to the prices of a sale's lines and to its total. -/
def saleSums (lines : List SaleLine) (saleDiscount : Option SaleDiscount) (rates : List DocRate)
    (registered : Bool) : List Int :=
  runningSums 0 (lines.map SaleLine.base) ++
    runningSums 0 (floorParts (saleOff lines saleDiscount) (lines.map SaleLine.base)) ++
    docSums (saleDocLines lines saleDiscount) (docRates rates registered) false

end ClientBridge.Pos
