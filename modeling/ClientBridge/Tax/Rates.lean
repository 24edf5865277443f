import ClientBridge.Tax.Engine

/-!
# Rates in force on a day: `rates_on`, and the device's `ratesOn`

Both walk a table of rows and keep, for every code of the province, the row that began last;
a row with a zero rate ends a code.  Tables that say the same give the same rates
(`ratesOn_match`), and no code twice (`nodup_ratesOn`).
-/

namespace ClientBridge

section
variable {ρ δ : Type} [LinearOrder δ] (code : ρ → TaxCode) (validFrom : ρ → δ)

/-- The row goes in for its code unless the one there began no earlier. -/
def keepLatest (row : ρ) : List ρ → List ρ
  | [] => [row]
  | seen :: rest =>
    if code seen = code row then (if validFrom seen < validFrom row then row else seen) :: rest
    else seen :: keepLatest row rest

def latestRows (rows : List ρ) : List ρ :=
  rows.foldl (fun current row => keepLatest code validFrom row current) []

theorem codes_keepLatest (row : ρ) (current : List ρ) :
    (keepLatest code validFrom row current).map code =
      if code row ∈ current.map code then current.map code else current.map code ++ [code row] := by
  induction current with
  | nil => rfl
  | cons seen rest ih =>
    by_cases h : code seen = code row
    · by_cases hv : validFrom seen < validFrom row <;> simp [keepLatest, h, hv]
    · have hne : code row ≠ code seen := fun e => h e.symm
      simp only [keepLatest, if_neg h, List.map_cons, ih, List.mem_cons, hne, false_or]
      split <;> rfl

theorem nodup_latestRows (rows : List ρ) : ((latestRows code validFrom rows).map code).Nodup := by
  have h : ∀ current : List ρ, (current.map code).Nodup →
      ((rows.foldl (fun current row => keepLatest code validFrom row current) current).map code).Nodup := by
    induction rows with
    | nil => exact fun current hc => hc
    | cons row rows ih =>
      intro current hc
      apply ih
      rw [codes_keepLatest]
      split
      · exact hc
      · next hm =>
        refine List.nodup_append.2 ⟨hc, List.nodup_singleton _, ?_⟩
        rintro a ha b hb rfl
        rw [List.mem_singleton.1 hb] at ha
        exact hm ha
  exact h [] List.nodup_nil

end

/-- A tax a province charges from `validFrom` until a later row for the same code. -/
structure Rate (δ : Type) where
  province : String
  code : TaxCode
  rate : ℚ
  validFrom : δ
  rate_nonneg : 0 ≤ rate

/-- A rate row as the device carries it, in parts per million. -/
structure RateRow (δ : Type) where
  province : String
  code : TaxCode
  ppm : Int
  validFrom : δ
  deriving DecidableEq, Repr

structure DocRate where
  code : TaxCode
  ppm : Int
  deriving DecidableEq, Repr

def Rate.component {δ : Type} (row : Rate δ) : Option TaxComponent :=
  if row.rate = 0 then none
  else some ⟨row.code, row.rate, row.rate_nonneg⟩

variable {δ : Type} [LinearOrder δ]

/-- The sales-tax components a province charges on a date of supply. -/
def ratesOn (table : List (Rate δ)) (province : Option String) (on : δ) : List TaxComponent :=
  (latestRows (·.code) (·.validFrom)
    (table.filter fun row => some row.province = province ∧ row.validFrom ≤ on)).filterMap Rate.component

/-- The taxes a province charges on a business date, as the device picks them. -/
def deviceRatesOn (table : List (RateRow δ)) (province : Option String) (day : δ) : List DocRate :=
  ((latestRows (·.code) (·.validFrom)
    (table.filter fun row => some row.province = province ∧ row.validFrom ≤ day)).filter
      fun r => 0 < r.ppm).map fun r => ⟨r.code, r.ppm⟩

/-- A device row says what a server row says. -/
def Rate.Matches (r : Rate δ) (d : RateRow δ) : Prop :=
  d.province = r.province ∧ d.code = r.code ∧ d.validFrom = r.validFrom ∧
    (d.ppm : ℚ) = r.rate * 1000000

/-- The two tables say the same, row by row. -/
abbrev TablesMatch (table : List (Rate δ)) (rows : List (RateRow δ)) : Prop :=
  List.Forall₂ Rate.Matches table rows

def TaxComponent.Matches (r : TaxComponent) (d : DocRate) : Prop :=
  d.code = r.jurisdiction ∧ (d.ppm : ℚ) = r.rate * 1000000

theorem keepLatest_match {row : Rate δ} {drow : RateRow δ} (h : row.Matches drow)
    {current : List (Rate δ)} {seen : List (RateRow δ)} (hc : TablesMatch current seen) :
    TablesMatch (keepLatest (·.code) (·.validFrom) row current)
      (keepLatest (·.code) (·.validFrom) drow seen) := by
  induction hc with
  | nil => exact List.Forall₂.cons h List.Forall₂.nil
  | @cons r d rs ds hrd hrest ih =>
    by_cases hcode : r.code = row.code
    · have hd : d.code = drow.code := by rw [hrd.2.1, h.2.1, hcode]
      by_cases hv : r.validFrom < row.validFrom
      · have hdv : d.validFrom < drow.validFrom := by rwa [hrd.2.2.1, h.2.2.1]
        simp only [keepLatest, if_pos hcode, if_pos hd, if_pos hv, if_pos hdv]
        exact List.Forall₂.cons h hrest
      · have hdv : ¬d.validFrom < drow.validFrom := by rwa [hrd.2.2.1, h.2.2.1]
        simp only [keepLatest, if_pos hcode, if_pos hd, if_neg hv, if_neg hdv]
        exact List.Forall₂.cons hrd hrest
    · have hd : d.code ≠ drow.code := by rw [hrd.2.1, h.2.1]; exact hcode
      simp only [keepLatest, if_neg hcode, if_neg hd]
      exact List.Forall₂.cons hrd ih

theorem latestRows_match {table : List (Rate δ)} {rows : List (RateRow δ)}
    (h : TablesMatch table rows) :
    TablesMatch (latestRows (·.code) (·.validFrom) table) (latestRows (·.code) (·.validFrom) rows) := by
  have hf : ∀ (current : List (Rate δ)) (seen : List (RateRow δ)), TablesMatch current seen →
      TablesMatch (table.foldl (fun c r => keepLatest (·.code) (·.validFrom) r c) current)
        (rows.foldl (fun c r => keepLatest (·.code) (·.validFrom) r c) seen) := by
    induction h with
    | nil => exact fun current seen hc => hc
    | cons hrd hrest ih => exact fun current seen hc => ih _ _ (keepLatest_match hrd hc)
  exact hf [] [] List.Forall₂.nil

theorem filter_match {table : List (Rate δ)} {rows : List (RateRow δ)} (h : TablesMatch table rows)
    (province : Option String) (on : δ) :
    TablesMatch (table.filter fun row => some row.province = province ∧ row.validFrom ≤ on)
      (rows.filter fun row => some row.province = province ∧ row.validFrom ≤ on) := by
  induction h with
  | nil => exact List.Forall₂.nil
  | @cons r d rs ds hrd hrest ih =>
    by_cases hk : some r.province = province ∧ r.validFrom ≤ on
    · have hd : some d.province = province ∧ d.validFrom ≤ on := by rwa [hrd.1, hrd.2.2.1]
      rw [List.filter_cons_of_pos (by simpa using hk), List.filter_cons_of_pos (by simpa using hd)]
      exact List.Forall₂.cons hrd ih
    · have hd : ¬(some d.province = province ∧ d.validFrom ≤ on) := by rwa [hrd.1, hrd.2.2.1]
      rw [List.filter_cons_of_neg (by simpa using hk), List.filter_cons_of_neg (by simpa using hd)]
      exact ih

/-- Tables that say the same give the same rates, in the same order. -/
theorem ratesOn_match {table : List (Rate δ)} {rows : List (RateRow δ)} (h : TablesMatch table rows)
    (province : Option String) (on : δ) :
    List.Forall₂ TaxComponent.Matches (ratesOn table province on) (deviceRatesOn rows province on) := by
  have hm := latestRows_match (filter_match h province on)
  unfold ratesOn deviceRatesOn
  generalize latestRows (·.code) (·.validFrom) (table.filter _) = current at hm
  generalize latestRows (·.code) (·.validFrom) (rows.filter _) = seen at hm
  induction hm with
  | nil => exact List.Forall₂.nil
  | @cons r d rs ds hrd hrest ih =>
    obtain ⟨-, hcode, -, hppm⟩ := hrd
    by_cases h0 : r.rate = 0
    · have hd : ¬0 < d.ppm := by
        have : (d.ppm : ℚ) = 0 := by rw [hppm, h0, zero_mul]
        have hz : d.ppm = 0 := by exact_mod_cast this
        omega
      rw [List.filterMap_cons_none (by simp [Rate.component, h0]),
        List.filter_cons_of_neg (by simpa using hd)]
      exact ih
    · have hpos : 0 < r.rate := lt_of_le_of_ne r.rate_nonneg (Ne.symm h0)
      have hd : 0 < d.ppm := by
        have : (0 : ℚ) < d.ppm := by rw [hppm]; positivity
        exact_mod_cast this
      rw [List.filterMap_cons_some (b := ⟨r.code, r.rate, r.rate_nonneg⟩) (by simp [Rate.component, h0]),
        List.filter_cons_of_pos (by simpa using hd), List.map_cons]
      exact List.Forall₂.cons ⟨hcode, hppm⟩ ih

theorem nodup_deviceRatesOn (rows : List (RateRow δ)) (province : Option String) (day : δ) :
    ((deviceRatesOn rows province day).map (·.code)).Nodup := by
  unfold deviceRatesOn
  rw [List.map_map]
  exact (nodup_latestRows (fun r : RateRow δ => r.code) (·.validFrom) _).sublist
    (List.filter_sublist.map _)

/-! ## The tables in use -/

/-- A calendar date: year, month, day. -/
abbrev Day := ℕ ×ₗ ℕ ×ₗ ℕ

def day (y m d : ℕ) : Day := toLex (y, toLex (m, d))

/-- The server's rows (`RATES`). -/
def rateTable : List (Rate Day) :=
  [⟨"AB", .GST, 0.05, (day 2008 1 1), by norm_num⟩,
   ⟨"BC", .GST, 0.05, (day 2008 1 1), by norm_num⟩,
   ⟨"BC", .PST, 0.07, (day 2013 4 1), by norm_num⟩,
   ⟨"MB", .GST, 0.05, (day 2008 1 1), by norm_num⟩,
   ⟨"MB", .RST, 0.07, (day 2019 7 1), by norm_num⟩,
   ⟨"NB", .HST, 0.15, (day 2016 7 1), by norm_num⟩,
   ⟨"NL", .HST, 0.15, (day 2016 7 1), by norm_num⟩,
   ⟨"NS", .HST, 0.15, (day 2010 7 1), by norm_num⟩,
   ⟨"NS", .HST, 0.14, (day 2025 4 1), by norm_num⟩,
   ⟨"NT", .GST, 0.05, (day 2008 1 1), by norm_num⟩,
   ⟨"NU", .GST, 0.05, (day 2008 1 1), by norm_num⟩,
   ⟨"ON", .HST, 0.13, (day 2010 7 1), by norm_num⟩,
   ⟨"PE", .HST, 0.15, (day 2016 10 1), by norm_num⟩,
   ⟨"QC", .GST, 0.05, (day 2008 1 1), by norm_num⟩,
   ⟨"QC", .QST, 0.09975, (day 2013 1 1), by norm_num⟩,
   ⟨"SK", .GST, 0.05, (day 2008 1 1), by norm_num⟩,
   ⟨"SK", .PST, 0.06, (day 2017 3 23), by norm_num⟩,
   ⟨"YT", .GST, 0.05, (day 2008 1 1), by norm_num⟩]

/-- The device's rows (`TAX_RATES`). -/
def taxRateTable : List (RateRow Day) :=
  [⟨"AB", .GST, 50000, (day 2008 1 1)⟩,
   ⟨"BC", .GST, 50000, (day 2008 1 1)⟩,
   ⟨"BC", .PST, 70000, (day 2013 4 1)⟩,
   ⟨"MB", .GST, 50000, (day 2008 1 1)⟩,
   ⟨"MB", .RST, 70000, (day 2019 7 1)⟩,
   ⟨"NB", .HST, 150000, (day 2016 7 1)⟩,
   ⟨"NL", .HST, 150000, (day 2016 7 1)⟩,
   ⟨"NS", .HST, 150000, (day 2010 7 1)⟩,
   ⟨"NS", .HST, 140000, (day 2025 4 1)⟩,
   ⟨"NT", .GST, 50000, (day 2008 1 1)⟩,
   ⟨"NU", .GST, 50000, (day 2008 1 1)⟩,
   ⟨"ON", .HST, 130000, (day 2010 7 1)⟩,
   ⟨"PE", .HST, 150000, (day 2016 10 1)⟩,
   ⟨"QC", .GST, 50000, (day 2008 1 1)⟩,
   ⟨"QC", .QST, 99750, (day 2013 1 1)⟩,
   ⟨"SK", .GST, 50000, (day 2008 1 1)⟩,
   ⟨"SK", .PST, 60000, (day 2017 3 23)⟩,
   ⟨"YT", .GST, 50000, (day 2008 1 1)⟩]

theorem tables_match : TablesMatch rateTable taxRateTable := by
  simp only [TablesMatch, rateTable, taxRateTable, List.forall₂_cons, Rate.Matches, true_and]
  norm_num

end ClientBridge
