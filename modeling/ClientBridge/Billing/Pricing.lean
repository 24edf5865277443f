import ClientBridge.Billing.Lines
import ClientBridge.Tax.Engine

/-!
# Line helpers: `price_lines`

Line discounts come off first, then the document's discount is shared across the included
lines by value.  An add-on the client did not pick is priced but counts toward nothing.
-/

namespace ClientBridge

inductive DiscountKind where
  | percent | amount
  deriving DecidableEq, Repr

/-- A discount a request may give; `value` is a whole percent or an amount in cents. -/
structure DiscountIn where
  kind : DiscountKind
  value : Int
  value_pos : 0 < value
  percent_le : kind = .percent → value ≤ 100

/-- The discount columns of a line or a document. -/
structure Discounted where
  kind : Option DiscountKind
  value : Option Int
  deriving DecidableEq, Repr

def setDiscount (discount : Option DiscountIn) : Discounted :=
  ⟨discount.map (·.kind), discount.map (·.value)⟩

/-- What a request says of a line, as far as its price goes. -/
structure LineInput where
  quantity : ℚ
  unitAmountCents : Int
  taxClass : TaxClass
  optional : Bool := false
  discount : Option DiscountIn
  quantity_pos : 0 < quantity
  unit_nonneg : 0 ≤ unitAmountCents

/-- A row of the `lines` table, as far as its price goes. -/
structure LineRow where
  quantity : ℚ
  unitAmountCents : Int
  taxClass : TaxClass
  optional : Bool := false
  selected : Bool := false
  discount : Discounted
  discountCents : Int := 0
  saleDiscountCents : Int := 0
  amountCents : Int := 0
  taxAmountCents : Int := 0
  deriving DecidableEq

/-- The line `replace_lines` builds, before it is priced. -/
def LineInput.line (inp : LineInput) : LineRow where
  quantity := inp.quantity
  unitAmountCents := inp.unitAmountCents
  taxClass := inp.taxClass
  optional := inp.optional
  discount := setDiscount inp.discount

/-- What a percent or amount discount takes off `base`, never more than the base. -/
def discountOff (base : Int) (kind : Option DiscountKind) (value : Option Int) : Int :=
  match kind, value with
  | some kind, some value =>
    if base ≤ 0 then 0
    else
      let off := match kind with
        | .percent => (base * value * 2 + 100) / 200
        | .amount => value
      max 0 (min base off)
  | _, _ => 0

/-- Whole cents, half up (`gross_cents`). -/
def LineRow.grossCents (ln : LineRow) : Int := Tax.cents (ln.quantity * ln.unitAmountCents)

/-- Every line counts toward its document except an add-on the client didn't pick. -/
def LineRow.included (ln : LineRow) : Bool := !ln.optional || ln.selected

def LineRow.lessDiscount (ln : LineRow) : LineRow :=
  { ln with discountCents := discountOff ln.grossCents ln.discount.kind ln.discount.value }

def LineRow.base (ln : LineRow) : Int := if ln.included then ln.grossCents - ln.discountCents else 0

def LineRow.lessShare (ln : LineRow) (share : Int) : LineRow :=
  { ln with saleDiscountCents := share, amountCents := ln.grossCents - ln.discountCents - share }

/-- What the document's own discount takes off its lines. -/
def documentOff (document : Option Discounted) (bases : List Int) : Int :=
  match document with
  | some d => discountOff bases.sum d.kind d.value
  | none => 0

/-- Line discounts first, then the document's shared across included lines by value. -/
def priceLines (lines : List LineRow) (document : Option Discounted) : List LineRow :=
  let lines := lines.map LineRow.lessDiscount
  let bases := lines.map LineRow.base
  List.zipWith LineRow.lessShare lines (allocate (documentOff document bases) bases)

inductive LineParent where
  | estimate | invoice | order
  deriving DecidableEq, Repr

/-- A parent's lines rebuilt from a request, priced net of discounts. -/
def replaceLines (parent : LineParent) (inputs : List LineInput) (document : Option Discounted) :
    Except String (List LineRow) :=
  if parent ≠ .estimate ∧ inputs.any (·.optional) then
    .error "only an estimate can offer optional add-ons"
  else .ok (priceLines (inputs.map LineInput.line) document)

def LineRow.taxLine (ln : LineRow) : TaxLine := { amountCents := ln.amountCents, taxClass := ln.taxClass }

theorem discountOff_nonneg (base : Int) (kind : Option DiscountKind) (value : Option Int) :
    0 ≤ discountOff base kind value := by
  unfold discountOff
  split
  · split
    · exact le_refl 0
    · exact le_max_left 0 _
  · exact le_refl 0

/-- A discount never takes more than there is. -/
theorem discountOff_le {base : Int} (hb : 0 ≤ base) (kind : Option DiscountKind)
    (value : Option Int) : discountOff base kind value ≤ base := by
  unfold discountOff
  split
  · split
    · exact hb
    · exact max_le hb (min_le_left _ _)
  · exact hb

@[simp] theorem length_priceLines (lines : List LineRow) (document : Option Discounted) :
    (priceLines lines document).length = lines.length := by
  simp [priceLines]

/-- Fields a share leaves alone are read off the lines, the others off the shares. -/
theorem map_zipWith_left {α β γ ε : Type} (f : α → β → γ) (k : γ → ε) (u : α → ε)
    (h : ∀ a b, k (f a b) = u a) {xs : List α} {ys : List β} (hl : ys.length = xs.length) :
    (List.zipWith f xs ys).map k = xs.map u := by
  apply List.ext_getElem
  · simp [hl]
  · intro i h1 h2
    simp [h]

theorem map_zipWith_right {α β γ ε : Type} (f : α → β → γ) (k : γ → ε) (u : β → ε)
    (h : ∀ a b, k (f a b) = u b) {xs : List α} {ys : List β} (hl : ys.length = xs.length) :
    (List.zipWith f xs ys).map k = ys.map u := by
  apply List.ext_getElem
  · simp [hl]
  · intro i h1 h2
    simp [h]

theorem Tax.cents_intCast (n : Int) : Tax.cents n = n := by
  have hf : ∀ m : Int, ⌊((m : ℚ)) + 1 / 2⌋ = m := by
    intro m
    rw [Int.floor_eq_iff]
    constructor <;> linarith
  by_cases h : 0 ≤ n
  · have hq : (0 : ℚ) ≤ n := by exact_mod_cast h
    simp only [Tax.cents, hq, if_pos, abs_of_nonneg hq, hf]
  · have hq : ¬(0 : ℚ) ≤ n := by exact_mod_cast h
    have ha : |(n : ℚ)| = ((-n : Int) : ℚ) := by
      rw [abs_of_neg (not_le.1 hq)]
      push_cast
      rfl
    simp only [Tax.cents, hq, if_false, ha, hf]
    omega

/-- Whole quantities need no rounding. -/
theorem LineRow.grossCents_whole {ln : LineRow} {n : Int} (h : ln.quantity = n) :
    ln.grossCents = n * ln.unitAmountCents := by
  have hm : ln.quantity * ln.unitAmountCents = ((n * ln.unitAmountCents : Int) : ℚ) := by
    rw [h]
    push_cast
    rfl
  rw [LineRow.grossCents, hm, Tax.cents_intCast]

end ClientBridge
