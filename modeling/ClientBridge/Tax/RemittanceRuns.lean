import ClientBridge.Tax.Remittances
import ClientBridge.Library.Runs

/-!
# A filed return settles its period

No day of a family is filed twice (`FilingsKeep`), since a return's journal is always written
and carries what it was filed for.  It clears every code it covers unless the codes cancel
each other out (`settles_iff`): a total of zero passes for a period without tax.
-/

namespace ClientBridge

open Bookkeeping Runs

/-! ## Posting -/

theorem net_writtenLegs (keepZero : Bool) (legs : List (Entry AccountKey Unit)) :
    net (writtenLegs keepZero legs) = net legs := by
  cases keepZero
  · exact net_nonzero legs
  · rfl

theorem sumOf_writtenLegs (p : Entry AccountKey Unit → Bool) (keepZero : Bool)
    (legs : List (Entry AccountKey Unit)) : sumOf p (writtenLegs keepZero legs) = sumOf p legs := by
  cases keepZero
  · exact sumOf_nonzero p legs
  · rfl

/-- A posting was accepted: its reference was taken, it was empty, or it is written at the end. -/
theorem postDated_ok {L L' : DatedLedger} {ref : DatedRef} {info : DatedInfo}
    {legs : List (Entry AccountKey Unit)} {keepZero : Bool}
    (h : postDated L ref info legs keepZero = .ok L') :
    L' = L ∨ (L.has ref = false ∧ writtenLegs keepZero legs ≠ [] ∧
      L' = L ++ [⟨L.length, ref, info, writtenLegs keepZero legs⟩]) := by
  unfold postDated at h
  split at h
  · cases h
    exact .inl rfl
  · next hr =>
    split at h
    · cases h
      exact .inl rfl
    · next hl =>
      split at h
      · cases h
      · cases h
        exact .inr ⟨by simpa using hr, hl, rfl⟩

/-- A balanced posting under a new reference that has a line to write is written. -/
theorem postDated_new {L : DatedLedger} {ref : DatedRef} (hr : L.has ref = false) (info : DatedInfo)
    {legs : List (Entry AccountKey Unit)} {keepZero : Bool} (hl : writtenLegs keepZero legs ≠ [])
    (hn : net legs = 0) :
    postDated L ref info legs keepZero = .ok (L ++ [⟨L.length, ref, info, writtenLegs keepZero legs⟩]) := by
  simp [postDated, hr, hl, net_writtenLegs, hn]

/-- What an accepted return was checked for, and what it posts. -/
theorem record_ok {midnight : Int → Int} {today now : Int} {L L' : DatedLedger} {data : RemittanceIn}
    {out : RemittanceOut} (h : record midnight today now L data = .ok (out, L')) :
    let taxes := taxOwed L (data.lo midnight) (data.hi midnight) data.family
    data.periodStart ≤ data.periodEnd ∧
      overlaps L data.periodStart data.periodEnd data.family = false ∧
      data.itcCents ≤ federalCents taxes ∧
      postDated L data.ref ⟨.remittance, now, some (data.filing (data.filedOn.getD today))⟩
        (if Dict.total taxes ≠ 0 then returnLegs taxes data.itcCents (Dict.total taxes - data.itcCents) else nilLegs)
        (decide (Dict.total taxes = 0)) = .ok L' := by
  intro taxes
  unfold record at h
  split at h
  · cases h
  · next h1 =>
    split at h
    · cases h
    · split at h
      · cases h
      · split at h
        · cases h
        · simp only [postReturn] at h
          split at h
          · cases h
          · next h5 =>
            split at h
            · cases h
            · split at h
              · cases h
              · next h7 =>
                refine ⟨by omega, by simpa using h5, not_lt.1 h7, ?_⟩
                cases hp : postDated L data.ref
                    ⟨.remittance, now, some (data.filing (data.filedOn.getD today))⟩
                    (if Dict.total taxes ≠ 0 then
                      returnLegs taxes data.itcCents (Dict.total taxes - data.itcCents) else nilLegs)
                    (decide (Dict.total taxes = 0)) with
                | error e =>
                  rw [hp] at h
                  cases h
                | ok L₁ =>
                  rw [hp] at h
                  cases h
                  rfl

/-! ## The taxes owed -/

theorem keys_owed (L : DatedLedger) (lo hi : Int) (family : Option TaxFamily) :
    (Dict.keys (taxOwed L lo hi family)).Nodup := by
  have hmap : (((coveredCodes family).map fun c => (c, -periodTax L lo hi c)).map (·.1)) = coveredCodes family := by
    rw [List.map_map]
    exact List.map_id _
  have hn : (coveredCodes family).Nodup := List.Nodup.filter _ (by decide)
  rw [← hmap] at hn
  exact hn.sublist (List.filter_sublist.map _)

theorem get_owed {family : Option TaxFamily} {c : TaxCode} (hc : c ∈ coveredCodes family)
    (L : DatedLedger) (lo hi : Int) : Dict.get (taxOwed L lo hi family) c = -periodTax L lo hi c := by
  by_cases hz : periodTax L lo hi c = 0
  · rw [hz, Int.neg_zero]
    apply Dict.get_of_not_mem
    intro hm
    obtain ⟨x, hx, rfl⟩ := List.mem_map.1 hm
    obtain ⟨hx, hne⟩ := List.mem_filter.1 hx
    obtain ⟨c', -, rfl⟩ := List.mem_map.1 hx
    simp [hz] at hne
  · have hm : (c, -periodTax L lo hi c) ∈ taxOwed L lo hi family :=
      List.mem_filter.2 ⟨List.mem_map.2 ⟨c, hc, rfl⟩, by simpa using hz⟩
    exact Dict.get_of_mem (keys_owed L lo hi family) hm

theorem owed_eq_nil {L : DatedLedger} {lo hi : Int} {family : Option TaxFamily} :
    taxOwed L lo hi family = [] ↔ ∀ c ∈ coveredCodes family, periodTax L lo hi c = 0 := by
  simp [taxOwed, List.filter_eq_nil_iff]

/-! ## The legs of a return -/

theorem net_map_taxLeg (taxes : List (TaxCode × Int)) : net (taxes.map taxLeg) = Dict.total taxes := by
  simp [net, Dict.total, Function.comp_def, taxLeg]

theorem net_returnLegs (taxes : List (TaxCode × Int)) (itcCents : Int) :
    net (returnLegs taxes itcCents (Dict.total taxes - itcCents)) = 0 := by
  rw [returnLegs, net_append, net_map_taxLeg]
  simp
  omega

theorem sumOf_isTax_map {taxes : List (TaxCode × Int)} (h : (Dict.keys taxes).Nodup) (c : TaxCode) :
    sumOf (isTax c) (taxes.map taxLeg) = Dict.get taxes c := by
  rw [← Dict.sumAt_eq_get h]
  induction taxes with
  | nil => rfl
  | cons x taxes ih =>
    rw [List.map_cons, sumOf_cons, Dict.sumAt_cons, ih (List.nodup_cons.1 h).2]
    simp [isTax, taxLeg]

theorem sumOf_isTax_returnLegs {taxes : List (TaxCode × Int)} (h : (Dict.keys taxes).Nodup)
    (itcCents paid : Int) (c : TaxCode) : sumOf (isTax c) (returnLegs taxes itcCents paid) = Dict.get taxes c := by
  rw [returnLegs, sumOf_append, sumOf_isTax_map h]
  simp [isTax]

/-- Whether a line is an input tax credit. -/
def isItc (e : Entry AccountKey Unit) : Bool := decide (e.key.category = .itc)

theorem sumOf_isItc_returnLegs (taxes : List (TaxCode × Int)) (itcCents paid : Int) :
    sumOf isItc (returnLegs taxes itcCents paid) = -itcCents := by
  have hz : sumOf isItc (taxes.map taxLeg) = 0 := by
    refine sumOf_eq_zero fun e he hp => ?_
    obtain ⟨x, -, rfl⟩ := List.mem_map.1 he
    cases hp
  rw [returnLegs, sumOf_append, hz]
  simp [isItc]

/-! ## Settling a period -/

/-- What the journal under a reference books. -/
def booked (L : DatedLedger) (ref : DatedRef) (p : Entry AccountKey Unit → Bool) : Int :=
  L.sum fun j e => decide (j.ref = ref) && p e

/-- A return settles its period: every code it covers, with a balanced journal that books the credit. -/
structure Settles (midnight : Int → Int) (data : RemittanceIn) (L : DatedLedger) : Prop where
  cleared : ∀ c ∈ coveredCodes data.family,
    periodTax L (data.lo midnight) (data.hi midnight) c + booked L data.ref (isTax c) = 0
  balanced : ∃ j ∈ L, j.ref = data.ref ∧ net j.legs = 0
  credited : booked L data.ref isItc = -data.itcCents

/-- The period has tax under some code and the codes add up to nothing. -/
def TaxCancels (midnight : Int → Int) (data : RemittanceIn) (L : DatedLedger) : Prop :=
  Dict.total (taxOwed L (data.lo midnight) (data.hi midnight) data.family) = 0 ∧
    taxOwed L (data.lo midnight) (data.hi midnight) data.family ≠ []

theorem booked_snoc {L : DatedLedger} {ref : DatedRef} (h : L.has ref = false) (info : DatedInfo)
    (legs : List (Entry AccountKey Unit)) (p : Entry AccountKey Unit → Bool) :
    booked (L ++ [⟨L.length, ref, info, legs⟩]) ref p = sumOf p legs := by
  have hz : L.sum (fun j e => decide (j.ref = ref) && p e) = 0 := by
    refine Book.sum_eq_zero_of_no_journal fun j hj e => ?_
    simp [(Book.has_false_iff L ref).1 h j hj]
  rw [booked, Book.sum_append, hz]
  simp [Book.sum]

/-- A return never counts among the entries of a period. -/
theorem periodTax_snoc (L : DatedLedger) (lo hi : Int) (c : TaxCode) (ref : DatedRef) (now : Int)
    (filing : Option Filing) (legs : List (Entry AccountKey Unit)) :
    periodTax (L ++ [⟨L.length, ref, ⟨.remittance, now, filing⟩, legs⟩]) lo hi c = periodTax L lo hi c := by
  rw [periodTax, Book.sum_append]
  have hz : sumOf (fun e => dated lo hi ⟨L.length, ref, ⟨.remittance, now, filing⟩, legs⟩ && isTax c e) legs = 0 :=
    sumOf_eq_zero fun e _ hp => by simp [dated] at hp
  simp [Book.sum, hz, periodTax]

theorem federalCents_nil : federalCents [] = 0 := by decide

/-- The legs of a return that owes something are not all zero. -/
theorem returnLegs_written {taxes : List (TaxCode × Int)} (ht : Dict.total taxes ≠ 0) (itcCents paid : Int) :
    writtenLegs false (returnLegs taxes itcCents paid) ≠ [] := by
  intro hnil
  have hz := (nonzero_eq_nil_iff _).1 hnil
  apply ht
  rw [← net_map_taxLeg]
  refine List.sum_eq_zero fun x hx => ?_
  obtain ⟨e, he, rfl⟩ := List.mem_map.1 hx
  exact hz e (List.mem_append_left _ he)

/-- The journal an accepted return writes. -/
theorem record_writes {midnight : Int → Int} {today now : Int} {L L' : DatedLedger} {data : RemittanceIn}
    {out : RemittanceOut} (hnew : L.has data.ref = false)
    (h : record midnight today now L data = .ok (out, L')) :
    let taxes := taxOwed L (data.lo midnight) (data.hi midnight) data.family
    ∃ legs, net legs = 0 ∧
      L' = L ++ [⟨L.length, data.ref, ⟨.remittance, now, some (data.filing (data.filedOn.getD today))⟩, legs⟩] ∧
      (Dict.total taxes ≠ 0 → ∀ p, sumOf p legs =
        sumOf p (returnLegs taxes data.itcCents (Dict.total taxes - data.itcCents))) ∧
      (Dict.total taxes = 0 → ∀ p, sumOf p legs = 0) := by
  intro taxes
  obtain ⟨-, -, -, hp⟩ := record_ok h
  by_cases ht : Dict.total taxes = 0
  · rw [if_neg (not_not.2 ht), decide_eq_true ht, postDated_new hnew _ (by simp [writtenLegs, nilLegs])
      (by decide)] at hp
    cases hp
    refine ⟨_, by decide, rfl, fun hne => absurd ht hne, fun _ p => ?_⟩
    simp [writtenLegs, nilLegs]
  · rw [if_pos ht, decide_eq_false ht, postDated_new hnew _ (returnLegs_written ht _ _)
      (net_returnLegs _ _)] at hp
    cases hp
    refine ⟨_, ?_, rfl, fun _ p => sumOf_writtenLegs p false _, fun hz => absurd hz ht⟩
    rw [net_writtenLegs, net_returnLegs]

/-- An accepted return settles its period unless the taxes cancel. -/
theorem settles_iff {midnight : Int → Int} {today now : Int} {L L' : DatedLedger} {data : RemittanceIn}
    {out : RemittanceOut} (hnew : L.has data.ref = false)
    (h : record midnight today now L data = .ok (out, L')) :
    Settles midnight data L' ↔ ¬TaxCancels midnight data L := by
  obtain ⟨-, -, hitc, -⟩ := record_ok h
  obtain ⟨legs, hnet, rfl, hfull, hnil⟩ := record_writes hnew h
  have hperiod := fun c => periodTax_snoc L (data.lo midnight) (data.hi midnight) c data.ref now
    (some (data.filing (data.filedOn.getD today))) legs
  have hbooked := booked_snoc hnew ⟨.remittance, now, some (data.filing (data.filedOn.getD today))⟩ legs
  by_cases ht : Dict.total (taxOwed L (data.lo midnight) (data.hi midnight) data.family) = 0
  · -- the nil return moves nothing
    have hz := hnil ht
    constructor
    · rintro ⟨hclear, -, -⟩ ⟨-, hne⟩
      refine hne (owed_eq_nil.2 fun c hc => ?_)
      have hc' := hclear c hc
      rw [hperiod, hbooked, hz] at hc'
      omega
    · intro hcancel
      have hnone : taxOwed L (data.lo midnight) (data.hi midnight) data.family = [] := by
        by_contra hne
        exact hcancel ⟨ht, hne⟩
      refine ⟨fun c hc => ?_, ⟨_, List.mem_append_right _ List.mem_cons_self, rfl, hnet⟩, ?_⟩
      · rw [hperiod, hbooked, hz, owed_eq_nil.1 hnone c hc, Int.add_zero]
      · rw [hnone, federalCents_nil] at hitc
        have h0 := data.itc_nonneg
        rw [hbooked, hz]
        omega
  · have hz := hfull ht
    constructor
    · exact fun _ hcancel => ht hcancel.1
    · intro _
      refine ⟨fun c hc => ?_, ⟨_, List.mem_append_right _ List.mem_cons_self, rfl, hnet⟩, ?_⟩
      · rw [hperiod, hbooked, hz, sumOf_isTax_returnLegs (keys_owed _ _ _ _), get_owed hc]
        omega
      · rw [hbooked, hz, sumOf_isItc_returnLegs]

/-! ## Over any run -/

/-- A return's journal covers a day for a family. -/
def CoversDay (j : DatedJournal) (d : Int) (f : TaxFamily) : Prop :=
  j.info.event = .remittance ∧ ∃ m, j.info.filing = some m ∧ (m.family = none ∨ m.family = some f) ∧
    m.start ≤ d ∧ d ≤ m.end_

/-- What holds of the returns in a ledger. -/
structure FilingsKeep (L : DatedLedger) : Prop where
  filed : ∀ j ∈ L, j.info.event = .remittance →
    ∃ m, j.info.filing = some m ∧ j.ref = .remittance m.family m.start m.end_ ∧ m.start ≤ m.end_ ∧ j.legs ≠ []
  returns : ∀ j ∈ L, ∀ scope start end_, j.ref = .remittance scope start end_ → j.info.event = .remittance
  /-- No day of a family is filed twice. -/
  apart : L.Pairwise fun j j' => ∀ d f, ¬(CoversDay j d f ∧ CoversDay j' d f)

theorem not_overlaps {L : DatedLedger} {start end_ : Int} {family : Option TaxFamily}
    (h : overlaps L start end_ family = false) {j : DatedJournal} (hj : j ∈ L)
    (he : j.info.event = .remittance) (hl : j.legs ≠ []) {m : Filing} (hm : j.info.filing = some m) :
    ¬(m.start ≤ end_ ∧ start ≤ m.end_ ∧ m.covers family = true) := by
  rintro ⟨h1, h2, h3⟩
  have hany := List.any_eq_false.1 h j hj
  simp [he, hl, hm, h1, h2, h3] at hany

/-- A return whose period is free has a reference of its own. -/
theorem FilingsKeep.new {L : DatedLedger} (hL : FilingsKeep L) {data : RemittanceIn}
    (hle : data.periodStart ≤ data.periodEnd)
    (h : overlaps L data.periodStart data.periodEnd data.family = false) : L.has data.ref = false := by
  rw [Book.has_false_iff]
  intro j hj href
  have he := hL.returns j hj _ _ _ href
  obtain ⟨m, hm, hmref, -, hl⟩ := hL.filed j hj he
  rw [href, RemittanceIn.ref, DatedRef.remittance.injEq] at hmref
  obtain ⟨hf, hs, hend⟩ := hmref
  refine not_overlaps h hj he hl hm ⟨by omega, by omega, ?_⟩
  simp [Filing.covers, ← hf]

theorem FilingsKeep.snoc_other {L : DatedLedger} (hL : FilingsKeep L) {j : DatedJournal}
    (he : j.info.event ≠ .remittance) (href : ∀ scope start end_, j.ref ≠ .remittance scope start end_) :
    FilingsKeep (L ++ [j]) := by
  refine ⟨fun i hi hie => ?_, fun i hi scope start end_ hir => ?_, ?_⟩
  · rcases List.mem_append.1 hi with hi | hi
    · exact hL.filed i hi hie
    · rw [List.mem_singleton.1 hi] at hie
      exact absurd hie he
  · rcases List.mem_append.1 hi with hi | hi
    · exact hL.returns i hi scope start end_ hir
    · rw [List.mem_singleton.1 hi] at hir
      exact absurd hir (href scope start end_)
  · refine List.pairwise_append.2 ⟨hL.apart, List.pairwise_singleton _ _, fun i _ i' hi' d f hc => ?_⟩
    rw [List.mem_singleton.1 hi'] at hc
    exact he hc.2.1

theorem FilingsKeep.snoc_return {L : DatedLedger} (hL : FilingsKeep L) {data : RemittanceIn}
    (hle : data.periodStart ≤ data.periodEnd)
    (h : overlaps L data.periodStart data.periodEnd data.family = false) (n : Nat) (filedOn now : Int)
    {legs : List (Entry AccountKey Unit)} (hl : legs ≠ []) :
    FilingsKeep (L ++ [⟨n, data.ref, ⟨.remittance, now, some (data.filing filedOn)⟩, legs⟩]) := by
  refine ⟨fun i hi hie => ?_, fun i hi scope start end_ hir => ?_, ?_⟩
  · rcases List.mem_append.1 hi with hi | hi
    · exact hL.filed i hi hie
    · rw [List.mem_singleton.1 hi]
      exact ⟨_, rfl, rfl, hle, hl⟩
  · rcases List.mem_append.1 hi with hi | hi
    · exact hL.returns i hi scope start end_ hir
    · rw [List.mem_singleton.1 hi]
  · refine List.pairwise_append.2 ⟨hL.apart, List.pairwise_singleton _ _, fun i hi i' hi' d f hc => ?_⟩
    rw [List.mem_singleton.1 hi'] at hc
    obtain ⟨⟨hie, m, hm, hmf, hs, hend⟩, -, m', hm', hmf', hs', hend'⟩ := hc
    cases hm'
    obtain ⟨m₀, hm₀, -, -, hil⟩ := hL.filed i hi hie
    refine not_overlaps h hi hie hil hm ⟨hs.trans hend', hs'.trans hend, ?_⟩
    have hfam : data.family = none ∨ data.family = some f := hmf'
    rcases hmf with hmf | hmf <;> rcases hfam with hfam | hfam <;> simp [Filing.covers, hmf, hfam]

/-- What one step keeps. -/
theorem FilingsKeep.step {L L' : DatedLedger} (hL : FilingsKeep L) {u : Unit} (hs : FilingStep L u L') :
    FilingsKeep L' := by
  cases hs with
  | journal he hp =>
    rcases postDated_ok hp with rfl | ⟨-, -, rfl⟩
    · exact hL
    · exact hL.snoc_other he (by simp)
  | filed hr =>
    obtain ⟨hle, hov, -, hp⟩ := record_ok hr
    rcases postDated_ok hp with rfl | ⟨-, hl, rfl⟩
    · exact hL
    · exact hL.snoc_return hle hov _ _ _ hl

/-- **A filed return settles its period**: over any journals and returns no day of a family is
filed twice, and an accepted return settles its period unless the taxes it covers cancel out. -/
theorem returns_settle {us : List Unit} {L : DatedLedger} (hrun : Run FilingStep [] us L) :
    (L.Pairwise fun j j' => ∀ d f, ¬(CoversDay j d f ∧ CoversDay j' d f)) ∧
      ∀ {midnight today now data out L'}, record midnight today now L data = .ok (out, L') →
        (Settles midnight data L' ↔ ¬TaxCancels midnight data L) := by
  have hL : FilingsKeep L := hrun.invariant (fun _ _ _ hL hs => hL.step hs)
    ⟨by simp, by simp, List.Pairwise.nil⟩
  refine ⟨hL.apart, fun h => ?_⟩
  obtain ⟨hle, hov, -, -⟩ := record_ok h
  exact settles_iff (hL.new hle hov) h

/-! ## A period in British Columbia -/

def taxJournal (event : EntryEvent) (at_ : Int) (c : TaxCode) (cents : Int) : DatedInfo × List (Entry AccountKey Unit) :=
  (⟨event, at_, none⟩, [⟨⟨.business, .cash, .plain⟩, cents, ()⟩, ⟨⟨.business, .tax, .tax c⟩, -cents, ()⟩])

/-- GST of 5.00 is collected, and PST of 5.00 given back for an older sale. -/
def springLedger : DatedLedger :=
  [⟨0, .other 0, (taxJournal .sale 5 .GST 500).1, (taxJournal .sale 5 .GST 500).2⟩,
   ⟨1, .other 1, (taxJournal .refund 6 .PST (-500)).1, (taxJournal .refund 6 .PST (-500)).2⟩]

theorem springLedger_run : Run FilingStep [] [(), ()] springLedger :=
  .snoc (.snoc .nil (@FilingStep.journal _ 0 (taxJournal .sale 5 .GST 500).1 (taxJournal .sale 5 .GST 500).2
    false _ (by decide) rfl))
    (@FilingStep.journal _ 1 (taxJournal .refund 6 .PST (-500)).1 (taxJournal .refund 6 .PST (-500)).2
      false _ (by decide) rfl)

def springReturn (family : Option TaxFamily) (itcCents : Int) (h : 0 ≤ itcCents) : RemittanceIn :=
  ⟨0, 0, family, itcCents, none, none, h⟩

/-- The federal return claims a credit of 1.00 and settles the period. -/
theorem springReturn_settles : ∃ out L', record (· * 10) 3 35 springLedger
    (springReturn (some .federal) 100 (by decide)) = .ok (out, L') ∧
      Settles (· * 10) (springReturn (some .federal) 100 (by decide)) L' := by
  obtain ⟨out, L', hr⟩ : ∃ out L', record (· * 10) 3 35 springLedger
      (springReturn (some .federal) 100 (by decide)) = .ok (out, L') := ⟨_, _, rfl⟩
  refine ⟨out, L', hr, ((returns_settle springLedger_run).2 hr).2 ?_⟩
  rintro ⟨h, -⟩
  exact absurd h (by decide)

/-- The combined return passes for a nil one and leaves both taxes where they are. -/
theorem cancelled_return_unsettled : ¬∀ (us : List Unit) (L : DatedLedger), Run FilingStep [] us L →
    ∀ (midnight : Int → Int) (today now : Int) (data : RemittanceIn) (out : RemittanceOut) (L' : DatedLedger),
      record midnight today now L data = .ok (out, L') → Settles midnight data L' := by
  intro h
  have hs := h _ _ springLedger_run (· * 10) 3 35 (springReturn none 0 (by decide)) _ _ rfl
  have hc := hs.cleared .GST (by decide)
  exact absurd hc (by decide)

end ClientBridge
