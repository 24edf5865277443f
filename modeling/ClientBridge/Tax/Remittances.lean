import ClientBridge.Ledger.Journals

/-!
# Filing a sales-tax return

`RemittanceService.record` files a period: what the period's journals left in tax payable moves
to the bank, less the input tax credits claimed.  Journals carry the instant they are dated at,
and a return's journal what it was filed for.  Days are counted, instants are whole numbers,
and `midnight` is the business's time zone: the instant a day begins at.
-/

namespace ClientBridge

open Bookkeeping

inductive TaxFamily where
  | federal | provincial
  deriving DecidableEq, Repr

/-- The codes filed on the federal return and on a provincial one (`FAMILY_CODES`). -/
def TaxFamily.codes : TaxFamily → List TaxCode
  | .federal => [.GST, .HST]
  | .provincial => [.PST, .QST, .RST]

def TaxCode.family : TaxCode → TaxFamily
  | .GST | .HST => .federal
  | .PST | .QST | .RST => .provincial

/-- What a return's journal was filed for (its `meta`). -/
structure Filing where
  start : Int
  end_ : Int
  family : Option TaxFamily
  itcCents : Int
  confirmation : Option String
  filedOn : Int
  deriving DecidableEq, Repr

inductive DatedRef where
  | remittance (scope : Option TaxFamily) (start end_ : Int)
  | other (serial : Nat)
  deriving DecidableEq, Repr

structure DatedInfo where
  event : EntryEvent
  occurredAt : Int
  filing : Option Filing := none
  deriving DecidableEq, Repr

abbrev DatedJournal := Journal DatedRef AccountKey Unit DatedInfo

abbrev DatedLedger := Book DatedRef AccountKey Unit DatedInfo

structure RemittanceIn where
  periodStart : Int
  periodEnd : Int
  family : Option TaxFamily
  itcCents : Int
  confirmation : Option String
  filedOn : Option Int
  itc_nonneg : 0 ≤ itcCents

structure RemittanceOut where
  periodStart : Int
  periodEnd : Int
  family : Option TaxFamily
  byCode : List (TaxCode × Int)
  itcCents : Int
  totalCents : Int
  confirmation : Option String
  filedOn : Int
  deriving DecidableEq, Repr

inductive FilingError where
  | endsBeforeStart | provincialItc | notEnded | filedInFuture | overlaps | refunded | itcTooHigh
  | unbalanced
  deriving DecidableEq, Repr

def FilingError.message : FilingError → String
  | .endsBeforeStart => "the period ends before it starts"
  | .provincialItc => "input tax credits are claimed on the GST/HST return"
  | .notEnded => "a return can only cover days that have ended"
  | .filedInFuture => "the filing date can't be in the future"
  | .overlaps => "this period overlaps a return that was already filed"
  | .refunded => "more tax was refunded than collected in this period"
  | .itcTooHigh => "input tax credits can't be more than the GST/HST collected"
  | .unbalanced => "unbalanced journal"

/-! ## Reading the ledger -/

/-- Whether a line is an entry of the tax code's payable account. -/
def isTax (c : TaxCode) (e : Entry AccountKey Unit) : Bool :=
  decide (e.key.category = .tax) && decide (e.key.code = .tax c)

/-- The entries `_owed` counts: a tax journal's that is dated in the period, never a return's. -/
def dated (lo hi : Int) (j : DatedJournal) : Bool :=
  decide (j.info.event ≠ .remittance) && decide (lo ≤ j.info.occurredAt) && decide (j.info.occurredAt < hi)

/-- What the period's journals left in a code's account. -/
def periodTax (L : DatedLedger) (lo hi : Int) (c : TaxCode) : Int := L.sum fun j e => dated lo hi j && isTax c e

/-- The codes a return covers; one without a family covers every code. -/
def coveredCodes (family : Option TaxFamily) : List TaxCode :=
  [.GST, .HST, .PST, .QST, .RST].filter fun c => decide (family = none ∨ family = some c.family)

/-- `_owed`: the nonzero codes in order. -/
def taxOwed (L : DatedLedger) (lo hi : Int) (family : Option TaxFamily) : List (TaxCode × Int) :=
  ((coveredCodes family).map fun c => (c, -periodTax L lo hi c)).filter fun x => decide (x.2 ≠ 0)

/-- `_covers` -/
def Filing.covers (m : Filing) (family : Option TaxFamily) : Bool :=
  decide (family = none) || decide (m.family = none) || decide (m.family = family)

/-- `_overlaps`: a return already filed has a day in common, in a family in common. -/
def overlaps (L : DatedLedger) (start end_ : Int) (family : Option TaxFamily) : Bool :=
  L.any fun j => decide (j.info.event = .remittance) && !j.legs.isEmpty &&
    j.info.filing.any fun m => decide (m.start ≤ end_) && decide (start ≤ m.end_) && m.covers family

/-! ## Posting -/

def writtenLegs (keepZero : Bool) (legs : List (Entry AccountKey Unit)) : List (Entry AccountKey Unit) :=
  if keepZero then legs else nonzero legs

/-- One balanced journal; a repeated reference leaves the ledger as it is. -/
def postDated (L : DatedLedger) (ref : DatedRef) (info : DatedInfo) (legs : List (Entry AccountKey Unit))
    (keepZero : Bool) : Except FilingError DatedLedger :=
  if L.has ref then .ok L
  else if writtenLegs keepZero legs = [] then .ok L
  else if net (writtenLegs keepZero legs) ≠ 0 then .error .unbalanced
  else .ok (L ++ [⟨L.length, ref, info, writtenLegs keepZero legs⟩])

def taxLeg (x : TaxCode × Int) : Entry AccountKey Unit := ⟨⟨.business, .tax, .tax x.1⟩, x.2, ()⟩

/-- The journal of a return that is not nil. -/
def returnLegs (taxOwed : List (TaxCode × Int)) (itcCents paid : Int) : List (Entry AccountKey Unit) :=
  let creditCode := ((TaxFamily.federal.codes.find? fun c => decide (c ∈ taxOwed.map (·.1))).getD .GST)
  taxOwed.map taxLeg ++ [⟨⟨.business, .itc, .tax creditCode⟩, -itcCents, ()⟩, ⟨⟨.business, .bank, .plain⟩, -paid, ()⟩]

def nilLegs : List (Entry AccountKey Unit) := [⟨⟨.business, .bank, .plain⟩, 0, ()⟩]

def federalCents (taxOwed : List (TaxCode × Int)) : Int := (TaxFamily.federal.codes.map (Dict.get taxOwed)).sum

def RemittanceIn.ref (data : RemittanceIn) : DatedRef := .remittance data.family data.periodStart data.periodEnd

def RemittanceIn.filing (data : RemittanceIn) (filedOn : Int) : Filing :=
  ⟨data.periodStart, data.periodEnd, data.family, data.itcCents, data.confirmation, filedOn⟩

/-- The period's first instant and the first one after it (`period_bounds`). -/
def RemittanceIn.lo (data : RemittanceIn) (midnight : Int → Int) : Int := midnight data.periodStart

def RemittanceIn.hi (data : RemittanceIn) (midnight : Int → Int) : Int := midnight (data.periodEnd + 1)

/-- Post one return's journal: the period's tax leaves tax payable for the bank. -/
def postReturn (midnight : Int → Int) (L : DatedLedger) (data : RemittanceIn) (filedOn occurredAt : Int) :
    Except FilingError (RemittanceOut × DatedLedger) :=
  if overlaps L data.periodStart data.periodEnd data.family then .error .overlaps
  else
    let taxOwed := taxOwed L (data.lo midnight) (data.hi midnight) data.family
    let total := Dict.total taxOwed
    if total < 0 then .error .refunded
    else if federalCents taxOwed < data.itcCents then .error .itcTooHigh
    else
      let paid := total - data.itcCents
      (postDated L data.ref ⟨.remittance, occurredAt, some (data.filing filedOn)⟩
        (if total ≠ 0 then returnLegs taxOwed data.itcCents paid else nilLegs)
        -- a nil return still records that the period was filed
        (decide (total = 0))).map fun L' =>
          (⟨data.periodStart, data.periodEnd, data.family, taxOwed, data.itcCents, paid, data.confirmation,
            filedOn⟩, L')

/-- `record`, under the business's row lock. -/
def record (midnight : Int → Int) (today now : Int) (L : DatedLedger) (data : RemittanceIn) :
    Except FilingError (RemittanceOut × DatedLedger) :=
  if data.periodEnd < data.periodStart then .error .endsBeforeStart
  else if data.itcCents ≠ 0 ∧ data.family = some .provincial then .error .provincialItc
  else if today ≤ data.periodEnd then .error .notEnded
  else if today < data.filedOn.getD today then .error .filedInFuture
  else postReturn midnight L data (data.filedOn.getD today) now

/-- What moves the ledger: any other balanced journal, and a return. -/
inductive FilingStep (L : DatedLedger) : Unit → DatedLedger → Prop
  | journal {serial info legs keepZero L'} (he : info.event ≠ .remittance)
      (hp : postDated L (.other serial) info legs keepZero = .ok L') : FilingStep L () L'
  | filed {midnight today now data out L'} (hr : record midnight today now L data = .ok (out, L')) :
      FilingStep L () L'

end ClientBridge
