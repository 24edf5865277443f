import ClientBridge.Catalog.StockUnits

/-!
# Online orders never oversell

The units held by live payments stay within the stock (`HeldWithinStock`), whatever order the
transactions take their steps in: an order that passed its check keeps the locks of its items, so
the units it is about to hold fit beside all others until it commits (`TakesStock`).  An order
that settles late, when it holds nothing any more, is left out.
-/

namespace ClientBridge

open Runs

variable {π : Type}

namespace ShopStore

/-! ## Writing a payment -/

/-- The row a charge was read under is there, and is its order's. -/
def RowOf (s : ShopStore π) (c : ShopCharge) : Prop :=
  ∀ id, c.row = some id → (∃ q ∈ s.payments, q.id = id) ∧ ∀ q ∈ s.payments, q.id = id → q.document = .order c.order

theorem active_succeed {s : ShopStore π} {c : ShopCharge} (h : s.RowOf c) {newId : Id} {d : SaleDocument} :
    (s.succeed c newId).active d = true ↔ s.active d = true ∨ d = .order c.order := by
  unfold succeed
  cases hrow : c.row with
  | some id =>
    obtain ⟨⟨q, hq, hid⟩, hdoc⟩ := h id hrow
    rw [active_setStatus (by simp)]
    refine or_congr_right ⟨?_, fun hd => ⟨q, hq, hid, hd ▸ hdoc q hq hid⟩⟩
    rintro ⟨q', hq', hid', rfl⟩
    exact hdoc q' hq' hid'
  | none =>
    simp only [active_iff, List.mem_append, List.mem_singleton]
    constructor
    · rintro ⟨q, hq | rfl, hd, hs⟩
      · exact .inl ⟨q, hq, hd, hs⟩
      · exact .inr hd.symm
    · rintro (⟨q, hq, hd, hs⟩ | rfl)
      · exact ⟨q, .inl hq, hd, hs⟩
      · exact ⟨_, .inr rfl, rfl, by simp⟩

theorem succeed_rows (s : ShopStore π) (c : ShopCharge) (newId : Id) :
    ∃ payments, s.succeed c newId = { s with payments := payments } := by
  unfold succeed
  split
  · exact ⟨_, rfl⟩
  · exact ⟨_, rfl⟩

theorem succeedVoid_rows (s : ShopStore π) (c : ShopCharge) (newId : Id) :
    ∃ payments orders late, s.succeedVoid c newId = { s with payments := payments, orders := orders, late := late } := by
  obtain ⟨payments, he⟩ := s.succeed_rows c newId
  exact ⟨payments, _, _, by rw [succeedVoid, he]⟩

/-- What a transaction does to the payments: no row goes or changes its document, and a new row has
an id of its own and makes its document active. -/
structure PaymentsGrow (s s' : ShopStore π) : Prop where
  ids : s.payments.Pairwise (fun q q' => q.id ≠ q'.id) → s'.payments.Pairwise fun q q' => q.id ≠ q'.id
  kept : ∀ q ∈ s.payments, ∃ q' ∈ s'.payments, q'.id = q.id
  rows : ∀ q' ∈ s'.payments, (∃ q ∈ s.payments, q.id = q'.id ∧ q.document = q'.document) ∨
    ((∀ q ∈ s.payments, q.id ≠ q'.id) ∧ s'.active q'.document = true)
  active : ∀ d, s.active d = true → s'.active d = true

theorem PaymentsGrow.of_eq {s s' : ShopStore π} (h : s'.payments = s.payments) : PaymentsGrow s s' where
  ids hp := by rwa [h]
  kept q hq := ⟨q, h ▸ hq, rfl⟩
  rows q' hq' := .inl ⟨q', h ▸ hq', rfl, rfl⟩
  active d hd := by
    rw [active_iff] at hd ⊢
    rwa [h]

theorem PaymentsGrow.setStatus (s : ShopStore π) (id : Id) {status : PaymentStatus} (h : status ≠ .canceled) :
    PaymentsGrow s (s.setStatus id status) where
  ids hp := by
    refine List.pairwise_map.2 (hp.imp fun {q q'} hne => ?_)
    split <;> split <;> exact hne
  kept q hq := ⟨_, List.mem_map.2 ⟨q, hq, rfl⟩, by split <;> rfl⟩
  rows q' hq' := by
    obtain ⟨q, hq, rfl⟩ := List.mem_map.1 hq'
    exact .inl ⟨q, hq, by split <;> rfl, by split <;> rfl⟩
  active d hd := (active_setStatus h).2 (.inl hd)

theorem PaymentsGrow.append {s s' : ShopStore π} {q₀ : ShopPayment} (h : s'.payments = s.payments ++ [q₀])
    (hnew : ∀ q ∈ s.payments, q.id ≠ q₀.id) (hs : q₀.status ≠ .canceled) : PaymentsGrow s s' where
  ids hp := by
    rw [h]
    refine List.pairwise_append.2 ⟨hp, List.pairwise_singleton _ _, fun q hq q' hq' => ?_⟩
    rw [List.mem_singleton.1 hq']
    exact hnew q hq
  kept q hq := ⟨q, h ▸ List.mem_append_left _ hq, rfl⟩
  rows q' hq' := by
    rw [h] at hq'
    rcases List.mem_append.1 hq' with hq | hq
    · exact .inl ⟨q', hq, rfl, rfl⟩
    · rw [List.mem_singleton.1 hq]
      exact .inr ⟨hnew, active_iff.2 ⟨q₀, h ▸ List.mem_append_right _ List.mem_cons_self, rfl, hs⟩⟩
  active d hd := by
    obtain ⟨q, hq, hdoc⟩ := active_iff.1 hd
    exact active_iff.2 ⟨q, h ▸ List.mem_append_left _ hq, hdoc⟩

theorem PaymentsGrow.succeed (s : ShopStore π) (c : ShopCharge) {newId : Id}
    (hnew : ∀ q ∈ s.payments, q.id ≠ newId) : PaymentsGrow s (s.succeed c newId) := by
  unfold ShopStore.succeed
  split
  · exact PaymentsGrow.setStatus s _ (by simp)
  · exact PaymentsGrow.append rfl hnew (by simp)

end ShopStore

/-! ## What every transaction knows -/

/-- A settlement holds its order's lock, so the order stays as it read it. -/
structure SettlesOrder (p : π) (s : ShopStore π) (c : ShopCharge) (status : OrderStatus) : Prop where
  row : s.RowOf c
  lock : s.orderLock c.order = some p
  order : ∃ o, s.orders c.order = some o ∧ o.status = status

/-- Units that passed the check fit beside all others, and the item's lock keeps it so. -/
def Fits (item : Id) (p : π) (s : ShopStore π) (units : Int) (document : SaleDocument) : Prop :=
  s.itemLock item = some p ∧ units + s.reservedBut item document ≤ s.stock item

/-- What a transaction knows of the store at its place. -/
def TakesStock (tracked : Id → Bool) (item : Id) (p : π) (s : ShopStore π) : ShopPlace → Prop
  | .idle => True
  | .ordering order lines left => (∀ l ∈ lines, l.document = .order order) ∧
      (item ∈ wantedItems tracked lines → item ∈ left ∨ s.itemLock item = some p)
  | .ordered order lines => (∀ l ∈ lines, l.document = .order order) ∧
      (item ∈ wantedItems tracked lines → Fits item p s (wanted lines item) (.order order))
  | .settling c => s.RowOf c
  | .expired c => SettlesOrder p s c .void
  | .settlingOpen c => SettlesOrder p s c .open
  | .checking c lines left => SettlesOrder p s c .open ∧ s.onDocument item (.order c.order) ≤ wanted lines item ∧
      (item ∈ wantedItems tracked lines → item ∈ left ∨ s.itemLock item = some p)
  | .syncing order paying _ left moving =>
      (∀ l ∈ left ++ moving, l ∈ s.lines ∧ l.document = .order order) ∧
      (∀ l ∈ moving, s.itemLock l.itemId = some p) ∧
      match paying with
      | none => left ++ moving ≠ [] → s.counted (.order order) = true
      | some c => c.order = order ∧ SettlesOrder p s c .open ∧
          (0 < s.onDocument item (.order order) →
            Fits item p s (s.onDocument item (.order order)) (.order order))
  | .failing id => ∀ q ∈ s.payments, q.id = id → s.active q.document = true

/-- What holds of the store between any two steps. -/
structure HeldWithinStock (item : Id) (s : ShopStore π) : Prop where
  paymentIds : s.payments.Pairwise fun q q' => q.id ≠ q'.id
  late : ∀ o ∈ s.late, ∃ order, s.orders o = some order ∧ order.status = .void
  within : s.reserved item ≤ s.stock item

theorem HeldWithinStock.row_unique {item : Id} {s : ShopStore π} (h : HeldWithinStock item s) {q r : ShopPayment}
    (hq : q ∈ s.payments) (hr : r ∈ s.payments) (hid : r.id = q.id) : r = q := by
  have hn : (s.payments.map (·.id)).Nodup := List.pairwise_map.2 h.paymentIds
  exact List.inj_on_of_nodup_map hn hr hq hid

/-- What a step of `p` leaves as it was for the other transactions. -/
structure Leaves (item : Id) (p : π) (s s' : ShopStore π) : Prop where
  payments : ShopStore.PaymentsGrow s s'
  itemLock : ∀ {q i}, q ≠ p → s.itemLock i = some q → s'.itemLock i = some q
  orderLock : ∀ {q o}, q ≠ p → s.orderLock o = some q → s'.orderLock o = some q
  order : ∀ {q o order}, q ≠ p → s.orderLock o = some q → s.orders o = some order → s'.orders o = some order
  lines : ∀ l ∈ s.lines, l ∈ s'.lines
  counted : ∀ d, s.counted d = true → s'.counted d = true
  onDocument : ∀ {o order}, s.orders o = some order → s'.onDocument item (.order o) ≤ s.onDocument item (.order o)
  stock : ∀ {q}, q ≠ p → s.itemLock item = some q → s'.stock item = s.stock item
  reserved : ∀ {q}, q ≠ p → s.itemLock item = some q → ∀ d, s'.reservedBut item d ≤ s.reservedBut item d

section
variable {tracked : Id → Bool} {item : Id} {p q : π} {s s' : ShopStore π}

theorem Leaves.rowOf (h : Leaves item p s s') {c : ShopCharge} (hc : s.RowOf c) : s'.RowOf c := by
  intro id hid
  obtain ⟨⟨r, hr, hrid⟩, hdoc⟩ := hc id hid
  obtain ⟨r', hr', hid'⟩ := h.payments.kept r hr
  refine ⟨⟨r', hr', hid'.trans hrid⟩, fun x hx hxid => ?_⟩
  obtain ⟨y, hy, hyid, hyd⟩ | ⟨hnew, -⟩ := h.payments.rows x hx
  · rw [← hyd]
    exact hdoc y hy (hyid.trans hxid)
  · exact absurd (hrid.trans hxid.symm) (hnew r hr)

theorem SettlesOrder.leaves {c : ShopCharge} {status : OrderStatus} (hs : SettlesOrder q s c status)
    (h : Leaves item p s s') (hq : q ≠ p) : SettlesOrder q s' c status := by
  obtain ⟨o, ho, hst⟩ := hs.order
  exact ⟨h.rowOf hs.row, h.orderLock hq hs.lock, o, h.order hq hs.lock ho, hst⟩

theorem Fits.leaves {n : Int} {d : SaleDocument} (hf : Fits item q s n d) (h : Leaves item p s s') (hq : q ≠ p) :
    Fits item q s' n d := by
  refine ⟨h.itemLock hq hf.1, ?_⟩
  have h1 := hf.2
  have h2 := h.reserved hq hf.1 d
  rw [h.stock hq hf.1]
  omega

/-- The steps of other transactions leave what a transaction knows true. -/
theorem TakesStock.leaves {x : ShopPlace} (hx : TakesStock tracked item q s x) (h : Leaves item p s s') (hq : q ≠ p) :
    TakesStock tracked item q s' x := by
  cases x with
  | idle => trivial
  | ordering order lines left => exact ⟨hx.1, fun hi => (hx.2 hi).imp_right (h.itemLock hq)⟩
  | ordered order lines => exact ⟨hx.1, fun hi => (hx.2 hi).leaves h hq⟩
  | settling c => exact h.rowOf hx
  | expired c => exact SettlesOrder.leaves hx h hq
  | settlingOpen c => exact SettlesOrder.leaves hx h hq
  | checking c lines left =>
    obtain ⟨hs, hw, hi⟩ := hx
    obtain ⟨o, ho, -⟩ := hs.order
    exact ⟨hs.leaves h hq, (h.onDocument ho).trans hw, fun hm => (hi hm).imp_right (h.itemLock hq)⟩
  | syncing order paying status left moving =>
    obtain ⟨hl, hm, hp⟩ := hx
    refine ⟨fun l hl' => ⟨h.lines l (hl l hl').1, (hl l hl').2⟩, fun l hl' => h.itemLock hq (hm l hl'), ?_⟩
    cases paying with
    | none => exact fun hne => h.counted _ (hp hne)
    | some c =>
      obtain ⟨rfl, hs, hf⟩ := hp
      refine ⟨rfl, hs.leaves h hq, fun h0 => ?_⟩
      obtain ⟨o, ho, -⟩ := hs.order
      have hle := h.onDocument ho
      have hf := (hf (by omega)).leaves h hq
      exact ⟨hf.1, by have := hf.2; omega⟩
  | failing id =>
    intro r hr hid
    obtain ⟨r', hr', hid', hd⟩ | ⟨-, ha⟩ := h.payments.rows r hr
    · rw [← hd]
      exact h.payments.active _ (hx r' hr' (hid'.trans hid))
    · exact ha

/-! ## Locks -/

theorem Leaves.refl (item : Id) (p : π) (s : ShopStore π) : Leaves item p s s where
  payments := .of_eq rfl
  itemLock _ h := h
  orderLock _ h := h
  order _ _ h := h
  lines _ h := h
  counted _ h := h
  onDocument _ := le_refl _
  stock _ _ := rfl
  reserved _ _ _ := le_refl _

theorem Leaves.lockItem {i : Id} (h : s.itemLock i = none ∨ s.itemLock i = some p) :
    Leaves item p s (s.lockItem p i) where
  payments := .of_eq rfl
  itemLock {q i'} hq hl := by
    have hi : i' ≠ i := by
      rintro rfl
      rcases h with h | h
      · rw [h] at hl
        cases hl
      · exact hq (Option.some.inj (hl.symm.trans h))
    exact (Function.update_of_ne hi _ _).trans hl
  orderLock _ h := h
  order _ _ h := h
  lines _ h := h
  counted _ h := h
  onDocument _ := le_refl _
  stock _ _ := rfl
  reserved _ _ _ := le_refl _

theorem Leaves.lockOrder {o : Id} (h : s.orderLock o = none) : Leaves item p s (s.lockOrder p o) where
  payments := .of_eq rfl
  itemLock _ h := h
  orderLock {q o'} hq hl := by
    have ho : o' ≠ o := by
      rintro rfl
      rw [h] at hl
      cases hl
    exact (Function.update_of_ne ho _ _).trans hl
  order _ _ h := h
  lines _ h := h
  counted _ h := h
  onDocument _ := le_refl _
  stock _ _ := rfl
  reserved _ _ _ := le_refl _

variable [DecidableEq π]

/-- Giving locks up takes none from the others. -/
theorem Leaves.release (h : Leaves item p s s') : Leaves item p s (s'.release p) where
  payments := ⟨h.payments.ids, h.payments.kept, h.payments.rows, h.payments.active⟩
  itemLock {q i} hq hl := by
    have hl := h.itemLock hq hl
    show (if s'.itemLock i = some p then none else s'.itemLock i) = some q
    rw [hl, if_neg fun hp => hq (Option.some.inj hp)]
  orderLock {q o} hq hl := by
    have hl := h.orderLock hq hl
    show (if s'.orderLock o = some p then none else s'.orderLock o) = some q
    rw [hl, if_neg fun hp => hq (Option.some.inj hp)]
  order := h.order
  lines := h.lines
  counted := h.counted
  onDocument := h.onDocument
  stock := h.stock
  reserved := h.reserved

theorem HeldWithinStock.release (h : HeldWithinStock item s) (p : π) : HeldWithinStock item (s.release p) :=
  ⟨h.paymentIds, h.late, h.within⟩

omit [DecidableEq π]

theorem ShopStore.counted_iff {d : SaleDocument} :
    s.counted d = true ↔ s.active d = true ∧ ∀ o, d = .order o → o ∉ s.late := by
  cases d with
  | order o => simp [ShopStore.counted]
  | invoice i => simp [ShopStore.counted]

/-! ## Placing an order -/

theorem mem_wantedItems {lines : List StockLine} (ht : tracked item = true) :
    item ∈ wantedItems tracked lines ↔ ∃ l ∈ lines, l.itemId = item := by
  simp [wantedItems, Dict.mem_fromKeys, ht]

theorem wanted_of_not_mem {lines : List StockLine} (ht : tracked item = true)
    (h : item ∉ wantedItems tracked lines) : wanted lines item = 0 := by
  rw [mem_wantedItems ht] at h
  have hnil : lines.filter (fun l => decide (l.itemId = item)) = [] :=
    List.filter_eq_nil_iff.2 fun l hl hi => h ⟨l, hl, by simpa using hi⟩
  rw [wanted, hnil]
  rfl

theorem unitsOn_place (s : ShopStore π) (item order payment : Id) (lines : List StockLine) (c : SaleDocument → Bool) :
    (s.place order lines payment).unitsOn item c = s.unitsOn item c + (lines.map (s.lineUnits item c)).sum := by
  rw [ShopStore.unitsOn_eq, ShopStore.unitsOn_eq, ← List.sum_append, ← List.map_append]
  rfl

/-- An order's own lines add what they want at most. -/
theorem unitsOn_new_le (s : ShopStore π) (item : Id) (lines : List StockLine) (c : SaleDocument → Bool) :
    (lines.map (s.lineUnits item c)).sum ≤ wanted lines item := by
  rw [wanted]
  induction lines with
  | nil => exact le_refl _
  | cons l lines ih =>
    have hl0 := le_max_right l.units 0
    have hl1 := le_max_left l.units 0
    rw [List.map_cons, List.sum_cons, ShopStore.lineUnits]
    by_cases hi : l.itemId = item
    · rw [List.filter_cons_of_pos (by simpa using hi), List.map_cons, List.sum_cons]
      split <;> omega
    · rw [List.filter_cons_of_neg (by simpa using hi), if_neg fun hc => hi hc.1]
      omega

theorem unitsOn_new_eq_zero {lines : List StockLine} {c : SaleDocument → Bool}
    (h : ∀ l ∈ lines, c l.document = false) : (lines.map (s.lineUnits item c)).sum = 0 := by
  refine List.sum_eq_zero fun n hn => ?_
  obtain ⟨l, hl, rfl⟩ := List.mem_map.1 hn
  simp [ShopStore.lineUnits, h l hl]

theorem counted_place {order payment : Id} {lines : List StockLine} {d : SaleDocument} (hd : d ≠ .order order) :
    (s.place order lines payment).counted d = s.counted d := by
  rw [Bool.eq_iff_iff, ShopStore.counted_iff, ShopStore.counted_iff]
  refine and_congr_left fun _ => ?_
  rw [ShopStore.active_iff, ShopStore.active_iff]
  constructor
  · rintro ⟨q, hq, hqd, hs⟩
    rcases List.mem_append.1 hq with hq | hq
    · exact ⟨q, hq, hqd, hs⟩
    · rw [List.mem_singleton.1 hq] at hqd
      exact absurd hqd.symm hd
  · rintro ⟨q, hq, hqd, hs⟩
    exact ⟨q, List.mem_append_left _ hq, hqd, hs⟩

/-- Beside any document, an order that is placed adds what it wants. -/
theorem reservedBut_place {order payment : Id} {lines : List StockLine} (hf : s.Fresh order payment)
    (d : SaleDocument) :
    (s.place order lines payment).reservedBut item d ≤ s.reservedBut item d + wanted lines item := by
  have hw := unitsOn_new_le s item lines
    fun d' => (s.place order lines payment).counted d' && decide (d' ≠ d)
  have hs : (s.unitsOn item fun d' => (s.place order lines payment).counted d' && decide (d' ≠ d)) ≤
      s.reservedBut item d := by
    refine ShopStore.unitsOn_le rfl fun l hl _ hs hc => ⟨hs, ?_⟩
    rwa [counted_place (hf.noLine l hl)] at hc
  rw [ShopStore.reservedBut, unitsOn_place]
  omega

theorem Leaves.place {order payment : Id} {lines : List StockLine} (ht : tracked item = true)
    (hx : TakesStock tracked item p s (.ordered order lines)) (hf : s.Fresh order payment) :
    Leaves item p s (s.place order lines payment) where
  payments := .append rfl hf.paymentId (by simp)
  itemLock _ h := h
  orderLock _ h := h
  order {q o row} _ _ ho := by
    have hne : o ≠ order := by
      rintro rfl
      rw [hf.noOrder] at ho
      cases ho
    exact (Function.update_of_ne hne _ _).trans ho
  lines l hl := List.mem_append_left _ hl
  counted d hd := by
    obtain ⟨ha, hn⟩ := ShopStore.counted_iff.1 hd
    obtain ⟨q, hq, hqd⟩ := ShopStore.active_iff.1 ha
    exact ShopStore.counted_iff.2 ⟨ShopStore.active_iff.2 ⟨q, List.mem_append_left _ hq, hqd⟩, hn⟩
  onDocument {o row} ho := by
    rw [ShopStore.onDocument, unitsOn_place, unitsOn_new_eq_zero fun l hl => ?_]
    · exact (Int.add_zero _).le
    · rw [hx.1 l hl]
      simp only [decide_eq_false_iff_not, SaleDocument.order.injEq]
      rintro rfl
      rw [hf.noOrder] at ho
      cases ho
  stock _ _ := rfl
  reserved {q} hq hl d := by
    -- another transaction holds the item's lock, so the order has no line of it
    have hnone : item ∉ wantedItems tracked lines := fun hi =>
      hq (Option.some.inj (hl.symm.trans (hx.2 hi).1))
    have h := @reservedBut_place _ item s order payment lines hf d
    rw [wanted_of_not_mem ht hnone] at h
    omega

theorem HeldWithinStock.place (h : HeldWithinStock item s) {order payment : Id} {lines : List StockLine}
    (ht : tracked item = true) (hx : TakesStock tracked item p s (.ordered order lines))
    (hf : s.Fresh order payment) : HeldWithinStock item (s.place order lines payment) where
  paymentIds := (Leaves.place ht hx hf).payments.ids h.paymentIds
  late o ho := by
    obtain ⟨row, hrow, hv⟩ := h.late o ho
    have hne : o ≠ order := by
      rintro rfl
      rw [hf.noOrder] at hrow
      cases hrow
    exact ⟨row, (Function.update_of_ne hne _ _).trans hrow, hv⟩
  within := by
    have hstock : (s.place order lines payment).stock item = s.stock item := rfl
    have hle : (s.place order lines payment).reserved item ≤ s.reservedBut item (.order order) + wanted lines item := by
      have hw := unitsOn_new_le s item lines (s.place order lines payment).counted
      have hs : s.unitsOn item (s.place order lines payment).counted ≤ s.reservedBut item (.order order) := by
        refine ShopStore.unitsOn_le rfl fun l hl _ hs hc => ⟨hs, ?_⟩
        have hd := hf.noLine l hl
        rw [counted_place hd] at hc
        simp [hc, hd]
      rw [ShopStore.reserved, unitsOn_place]
      omega
    by_cases hi : item ∈ wantedItems tracked lines
    · have h2 := (hx.2 hi).2
      omega
    · have h2 := s.reservedBut_le item (.order order)
      have h3 := h.within
      rw [wanted_of_not_mem ht hi] at hle
      omega

/-! ## Settling on an order that is gone -/

/-- A payment that settles late counts for nothing, one whose order held its units counts as before. -/
theorem counted_succeedVoid {c : ShopCharge} (hr : s.RowOf c) (newId : Id) (d : SaleDocument) :
    (s.succeedVoid c newId).counted d = s.counted d := by
  have hact : (s.succeedVoid c newId).active d = true ↔ s.active d = true ∨ d = .order c.order :=
    ShopStore.active_succeed hr
  rw [Bool.eq_iff_iff, ShopStore.counted_iff, ShopStore.counted_iff, hact]
  by_cases ha : s.active (.order c.order) = true
  · have hlate : (s.succeedVoid c newId).late = s.late := if_pos ha
    rw [hlate]
    refine and_congr_left fun _ => ⟨?_, .inl⟩
    rintro (hd | rfl)
    · exact hd
    · exact ha
  · have hlate : (s.succeedVoid c newId).late = c.order :: s.late := if_neg ha
    rw [hlate]
    constructor
    · rintro ⟨hd | rfl, hn⟩
      · exact ⟨hd, fun o ho hm => hn o ho (List.mem_cons_of_mem _ hm)⟩
      · exact absurd List.mem_cons_self (hn _ rfl)
    · rintro ⟨hd, hn⟩
      refine ⟨.inl hd, fun o ho hm => ?_⟩
      rcases List.mem_cons.1 hm with rfl | hm
      · exact ha (ho ▸ hd)
      · exact hn o ho hm

theorem Leaves.succeedVoid {c : ShopCharge} {status : OrderStatus} (hc : SettlesOrder p s c status) {newId : Id}
    (hnew : ∀ q ∈ s.payments, q.id ≠ newId) : Leaves item p s (s.succeedVoid c newId) where
  payments :=
    have h := ShopStore.PaymentsGrow.succeed s c hnew
    ⟨h.ids, h.kept, h.rows, h.active⟩
  itemLock hq hl := by
    obtain ⟨payments, orders, late, he⟩ := s.succeedVoid_rows c newId
    rwa [he]
  orderLock hq hl := by
    obtain ⟨payments, orders, late, he⟩ := s.succeedVoid_rows c newId
    rwa [he]
  order {q o row} hq hl ho := by
    have hne : o ≠ c.order := by
      rintro rfl
      exact hq (Option.some.inj (hl.symm.trans hc.lock))
    exact (Function.update_of_ne hne _ _).trans ho
  lines l hl := by
    obtain ⟨payments, orders, late, he⟩ := s.succeedVoid_rows c newId
    rwa [he]
  counted d hd := by rwa [counted_succeedVoid hc.row]
  onDocument ho := by
    obtain ⟨payments, orders, late, he⟩ := s.succeedVoid_rows c newId
    rw [he]
    exact le_refl _
  stock hq hl := by
    obtain ⟨payments, orders, late, he⟩ := s.succeedVoid_rows c newId
    rw [he]
  reserved hq hl d := by
    refine ShopStore.unitsOn_le ?_ fun l _ _ hs hd => ?_
    · obtain ⟨payments, orders, late, he⟩ := s.succeedVoid_rows c newId
      rw [he]
    · rw [counted_succeedVoid hc.row] at hd
      obtain ⟨payments, orders, late, he⟩ := s.succeedVoid_rows c newId
      rw [he] at hs
      exact ⟨hs, hd⟩

theorem HeldWithinStock.succeedVoid (h : HeldWithinStock item s) {c : ShopCharge} {status : OrderStatus}
    (hc : SettlesOrder p s c status) {newId : Id} (hnew : ∀ q ∈ s.payments, q.id ≠ newId) :
    HeldWithinStock item (s.succeedVoid c newId) where
  paymentIds := (@Leaves.succeedVoid _ item p s c status hc newId hnew).payments.ids h.paymentIds
  late o ho := by
    obtain ⟨row, hrow, -⟩ := hc.order
    by_cases hne : o = c.order
    · subst hne
      exact ⟨{ row with status := .void }, by simp [ShopStore.succeedVoid, hrow], rfl⟩
    · have hold : o ∈ s.late := by
        change o ∈ (if s.active (.order c.order) then s.late else c.order :: s.late) at ho
        split at ho
        · exact ho
        · exact (List.mem_cons.1 ho).resolve_left hne
      obtain ⟨row', hrow', hv⟩ := h.late o hold
      exact ⟨row', (Function.update_of_ne hne _ _).trans hrow', hv⟩
  within := by
    have hcounted : (s.succeedVoid c newId).counted = s.counted := funext (counted_succeedVoid hc.row newId)
    rw [ShopStore.reserved, hcounted]
    obtain ⟨payments, orders, late, he⟩ := s.succeedVoid_rows c newId
    rw [he]
    exact h.within

/-! ## Moving an order's lines -/

/-- What a transaction knows when it moves lines: they are its order's, and it holds their items. -/
def MovesOwn (p : π) (s : ShopStore π) (order : Id) (moving : List StockLine) : Prop :=
  ∀ l ∈ moving, l ∈ s.lines ∧ l.document = .order order ∧ s.itemLock l.itemId = some p

/-- After a payment was written and an order's lines moved, others find their items as they were. -/
theorem Leaves.foldl {s₁ : ShopStore π} (h : Leaves item p s s₁) {order : Id} {moving : List StockLine}
    (hm : MovesOwn p s₁ order moving) (hlock : s₁.itemLock = s.itemLock) (status : DocumentState) :
    Leaves item p s (moving.foldl (ShopStore.syncMove status) s₁) := by
  obtain ⟨stock, movements, he, hmv, hst⟩ := ShopStore.foldl_syncMove status moving s₁
  rw [he]
  have hle : ∀ c, ShopStore.unitsOn { s₁ with stock := stock, movements := movements } item c ≤ s₁.unitsOn item c := by
    refine fun c => ShopStore.unitsOn_le rfl fun l _ _ hs hc => ⟨?_, hc⟩
    simp only [ShopStore.sold, decide_eq_false_iff_not] at hs ⊢
    exact fun hmem => hs (hmv _ hmem)
  refine ⟨⟨h.payments.ids, h.payments.kept, h.payments.rows, h.payments.active⟩, h.itemLock, h.orderLock, h.order,
    h.lines, h.counted, fun ho => (hle _).trans (h.onDocument ho), fun {q} hq hl => ?_,
    fun hq hl d => (hle _).trans (h.reserved hq hl d)⟩
  rw [← h.stock hq hl]
  refine hst item fun l hml hi => ?_
  have hp := (hm l hml).2.2
  rw [hi, hlock, hl] at hp
  exact hq (Option.some.inj hp)

theorem HeldWithinStock.foldl {s₁ : ShopStore π} (h : HeldWithinStock item s₁) {order : Id} {moving : List StockLine}
    (hm : MovesOwn p s₁ order moving) (hc : moving ≠ [] → s₁.counted (.order order) = true) (status : DocumentState) :
    HeldWithinStock item (moving.foldl (ShopStore.syncMove status) s₁) := by
  have hlines : ∀ l ∈ moving, l ∈ s₁.lines ∧ s₁.counted l.document = true := fun l hl =>
    ⟨(hm l hl).1, (hm l hl).2.1 ▸ hc (List.ne_nil_of_mem hl)⟩
  have hwithin := @ShopStore.foldl_syncMove_within _ status item s₁.counted moving s₁ hlines h.within
  obtain ⟨stock, movements, he, -, -⟩ := ShopStore.foldl_syncMove status moving s₁
  rw [he] at hwithin ⊢
  exact ⟨h.paymentIds, h.late, hwithin⟩

/-! ## Settling on an open order -/

theorem counted_succeed {c : ShopCharge} (hr : s.RowOf c) (newId : Id) {d : SaleDocument}
    (h : (s.succeed c newId).counted d = true) : s.counted d = true ∨ d = .order c.order := by
  obtain ⟨ha, hn⟩ := ShopStore.counted_iff.1 h
  obtain ⟨payments, he⟩ := s.succeed_rows c newId
  rw [he] at hn
  exact ((ShopStore.active_succeed hr).1 ha).imp_left fun ha => ShopStore.counted_iff.2 ⟨ha, hn⟩

/-- Only the settled order comes to hold its lines. -/
theorem reservedBut_succeed {c : ShopCharge} (hr : s.RowOf c) (newId : Id) (d : SaleDocument) :
    (s.succeed c newId).reservedBut item d ≤ s.reservedBut item d + s.onDocument item (.order c.order) := by
  have hle : (s.unitsOn item fun d' => (s.succeed c newId).counted d' && decide (d' ≠ d)) ≤
      s.reservedBut item d + s.onDocument item (.order c.order) := by
    refine s.unitsOn_le_add item fun d' hd' => ?_
    simp only [Bool.and_eq_true, decide_eq_true_eq] at hd' ⊢
    exact (counted_succeed hr newId hd'.1).imp_left fun h => ⟨h, hd'.2⟩
  obtain ⟨payments, he⟩ := s.succeed_rows c newId
  rw [he] at hle ⊢
  exact hle

theorem Leaves.succeed {c : ShopCharge} (hc : SettlesOrder p s c .open) {newId : Id}
    (hnew : ∀ q ∈ s.payments, q.id ≠ newId)
    (hf : 0 < s.onDocument item (.order c.order) →
      Fits item p s (s.onDocument item (.order c.order)) (.order c.order)) :
    Leaves item p s (s.succeed c newId) := by
  have hpay := ShopStore.PaymentsGrow.succeed s c hnew
  have hres := fun d => @reservedBut_succeed _ item s c hc.row newId d
  obtain ⟨payments, he⟩ := s.succeed_rows c newId
  rw [he] at hpay hres ⊢
  refine ⟨hpay, fun _ h => h, fun _ h => h, fun _ _ h => h, fun _ h => h, fun d hd => ?_, fun _ => le_refl _,
    fun _ _ => rfl, fun {q} hq hl d => ?_⟩
  · obtain ⟨ha, hn⟩ := ShopStore.counted_iff.1 hd
    exact ShopStore.counted_iff.2 ⟨hpay.active d ha, hn⟩
  · -- another transaction holds the item's lock, so the order has no unsold unit of it
    have h0 : s.onDocument item (.order c.order) ≤ 0 := not_lt.1 fun h0 =>
      hq (Option.some.inj (hl.symm.trans (hf h0).1))
    have := hres d
    omega

theorem HeldWithinStock.succeed (h : HeldWithinStock item s) {c : ShopCharge} (hc : SettlesOrder p s c .open)
    {newId : Id} (hnew : ∀ q ∈ s.payments, q.id ≠ newId)
    (hf : 0 < s.onDocument item (.order c.order) →
      Fits item p s (s.onDocument item (.order c.order)) (.order c.order)) :
    HeldWithinStock item (s.succeed c newId) ∧ (s.succeed c newId).counted (.order c.order) = true := by
  have hopen : c.order ∉ s.late := by
    intro hm
    obtain ⟨row, hrow, hv⟩ := h.late _ hm
    obtain ⟨row', hrow', ho⟩ := hc.order
    cases hrow.symm.trans hrow'
    rw [hv] at ho
    cases ho
  have hact : (s.succeed c newId).active (.order c.order) = true := (ShopStore.active_succeed hc.row).2 (.inr rfl)
  have hids := (ShopStore.PaymentsGrow.succeed s c hnew).ids h.paymentIds
  have hres := (s.succeed c newId).reserved_le item (.order c.order)
  have hbut : (s.succeed c newId).reservedBut item (.order c.order) ≤ s.reservedBut item (.order c.order) := by
    refine ShopStore.unitsOn_le ?_ fun l _ _ hs hd => ⟨?_, ?_⟩
    · obtain ⟨payments, he⟩ := s.succeed_rows c newId
      rw [he]
    · obtain ⟨payments, he⟩ := s.succeed_rows c newId
      rwa [he] at hs
    · simp only [Bool.and_eq_true, decide_eq_true_eq] at hd ⊢
      exact ⟨(counted_succeed hc.row newId hd.1).resolve_right hd.2, hd.2⟩
  obtain ⟨payments, he⟩ := s.succeed_rows c newId
  rw [he] at hact hids hres hbut ⊢
  refine ⟨⟨hids, h.late, ?_⟩, ShopStore.counted_iff.2 ⟨hact, ?_⟩⟩
  · have hdoc : ShopStore.onDocument { s with payments := payments } item (.order c.order) =
        s.onDocument item (.order c.order) := rfl
    show _ ≤ s.stock item
    by_cases h0 : 0 < s.onDocument item (.order c.order)
    · have := (hf h0).2
      omega
    · have h1 := s.reservedBut_le item (.order c.order)
      have h2 := h.within
      omega
  · intro o ho
    cases ho
    exact hopen

/-! ## Failing a payment, and restocking -/

/-- A payment that was pending keeps holding its units when it fails, whatever it is by then. -/
theorem counted_failed {id : Id} (hx : TakesStock tracked item p s (.failing id)) (d : SaleDocument) :
    (s.setStatus id .failed).counted d = s.counted d := by
  rw [Bool.eq_iff_iff, ShopStore.counted_iff, ShopStore.counted_iff, ShopStore.active_setStatus (by simp)]
  refine and_congr_left fun _ => ⟨?_, .inl⟩
  rintro (hd | ⟨q, hq, hid, rfl⟩)
  · exact hd
  · exact hx q hq hid

theorem Leaves.failed {id : Id} (hx : TakesStock tracked item p s (.failing id)) :
    Leaves item p s (s.setStatus id .failed) where
  payments := .setStatus s id (by simp)
  itemLock _ h := h
  orderLock _ h := h
  order _ _ h := h
  lines _ h := h
  counted d hd := by rwa [counted_failed hx]
  onDocument _ := le_refl _
  stock _ _ := rfl
  reserved _ _ d := ShopStore.unitsOn_le rfl fun l _ _ hs hc => ⟨hs, counted_failed hx _ ▸ hc⟩

theorem HeldWithinStock.failed (h : HeldWithinStock item s) {id : Id}
    (hx : TakesStock tracked item p s (.failing id)) : HeldWithinStock item (s.setStatus id .failed) where
  paymentIds := (ShopStore.PaymentsGrow.setStatus s id (by simp)).ids h.paymentIds
  late := h.late
  within := by
    have hcounted : (s.setStatus id .failed).counted = s.counted := funext (counted_failed hx)
    rw [ShopStore.reserved, hcounted]
    exact h.within

theorem Leaves.restock {i : Id} (h : s.itemLock i = none) (n : Int) : Leaves item p s (s.restock i n) where
  payments := .of_eq rfl
  itemLock _ h := h
  orderLock _ h := h
  order _ _ h := h
  lines _ h := h
  counted _ h := h
  onDocument _ := le_refl _
  stock {q} _ hl := by
    have hi : item ≠ i := by
      rintro rfl
      rw [h] at hl
      cases hl
    exact Function.update_of_ne hi _ _
  reserved _ _ _ := le_refl _

theorem HeldWithinStock.restock (h : HeldWithinStock item s) {i : Id} {n : Int} (hn : i = item → 0 ≤ n) :
    HeldWithinStock item (s.restock i n) where
  paymentIds := h.paymentIds
  late := h.late
  within := by
    have hw := h.within
    show s.reserved item ≤ Function.update s.stock i (s.stock i + n) item
    by_cases hi : item = i
    · subst hi
      have := hn rfl
      rw [Function.update_self]
      omega
    · rwa [Function.update_of_ne hi]

/-! ## A step, and a run -/

/-- The units of a line that is checked count at least as they do on the order. -/
theorem onDocument_le_wanted (s : ShopStore π) (item : Id) (document : SaleDocument) :
    s.onDocument item document ≤ wanted (s.unsold document) item := by
  rw [ShopStore.onDocument, ShopStore.unitsOn, wanted, ShopStore.unsold, List.filter_filter]
  refine le_trans (le_of_eq ?_) (List.sum_le_sum fun l _ => le_max_left l.units 0)
  congr 2
  refine List.filter_congr fun l _ => ?_
  cases s.sold l.id <;> simp

theorem fits_of_assert {document : SaleDocument} {lines : List StockLine} (ht : item ∈ wantedItems tracked lines)
    (h : s.assertParentStock tracked document true lines = .ok ()) :
    wanted lines item + s.reservedBut item document ≤ s.stock item := by
  unfold ShopStore.assertParentStock at h
  split at h
  · cases h
  · next hany =>
    have hno := List.any_eq_false.1 (Bool.not_eq_true _ ▸ hany) item ht
    have hle : ¬s.stock item - s.held item document < wanted lines item := by simpa using hno
    have := s.reservedBut_le_held item document
    omega

theorem mem_syncLines {document : SaleDocument} {status : DocumentState} {l : StockLine}
    (h : l ∈ s.syncLines tracked document status) :
    (status = .paid ∨ status = .refunded) ∧ l ∈ s.lines ∧ l.document = document := by
  unfold ShopStore.syncLines at h
  split at h
  · next hst =>
    have hl := List.mem_filter.1 ((List.mem_insertionSort _).1 h)
    refine ⟨hst, hl.1, ?_⟩
    have := hl.2
    simp only [Bool.and_eq_true, decide_eq_true_eq] at this
    exact this.1
  · cases h

variable [DecidableEq π]

/-- What one step keeps. -/
theorem ShopStep.keeps {x x' : ShopPlace} (ht : tracked item = true) (hs : ShopStep tracked item p s x s' x')
    (h : HeldWithinStock item s) (hx : TakesStock tracked item p s x) :
    Leaves item p s s' ∧ HeldWithinStock item s' ∧ TakesStock tracked item p s' x' := by
  cases hs with
  | order hl => exact ⟨.refl item p s, h, hl, .inl⟩
  | @orderItem order lines i left hi =>
    refine ⟨.lockItem (.inl hi), ⟨h.paymentIds, h.late, h.within⟩, hx.1, fun hm => ?_⟩
    by_cases he : item = i
    · subst he
      exact .inr (Function.update_self _ _ _)
    · rcases hx.2 hm with hl | hl
      · exact .inl ((List.mem_cons.1 hl).resolve_left he)
      · exact .inr ((Function.update_of_ne he _ _).trans hl)
  | @orderCheck order lines hok =>
    refine ⟨.refl item p s, h, hx.1, fun hm => ⟨?_, fits_of_assert hm hok⟩⟩
    exact (hx.2 hm).resolve_left List.not_mem_nil
  | orderCommit hf => exact ⟨(Leaves.place ht hx hf).release, (h.place ht hx hf).release p, trivial⟩
  | @read q order hq hd =>
    refine ⟨.refl item p s, h, fun id hid => ?_⟩
    cases hid
    exact ⟨⟨q, hq, rfl⟩, fun r hr hid => h.row_unique hq hr hid ▸ hd⟩
  | rebuilt ho => exact ⟨.refl item p s, h, fun id hid => by cases hid⟩
  | lockVoid hl ho hv hc =>
    refine ⟨.lockOrder hl, ⟨h.paymentIds, h.late, h.within⟩, ?_⟩
    exact ⟨hx, Function.update_self _ _ _, _, ho, hv⟩
  | lockOpen hl ho hv honline hc =>
    refine ⟨.lockOrder hl, ⟨h.paymentIds, h.late, h.within⟩, ?_⟩
    exact ⟨hx, Function.update_self _ _ _, _, ho, hv⟩
  | lines => exact ⟨.refl item p s, h, hx, onDocument_le_wanted s item _, .inl⟩
  | @checkItem c lines i left hi =>
    obtain ⟨hc, hw, hm⟩ := hx
    refine ⟨.lockItem (.inl hi), ⟨h.paymentIds, h.late, h.within⟩, ⟨hc.row, hc.lock, hc.order⟩, hw, fun hmem => ?_⟩
    by_cases he : item = i
    · subst he
      exact .inr (Function.update_self _ _ _)
    · rcases hm hmem with hl | hl
      · exact .inl ((List.mem_cons.1 hl).resolve_left he)
      · exact .inr ((Function.update_of_ne he _ _).trans hl)
  | @check c lines status hok =>
    obtain ⟨hc, hw, hm⟩ := hx
    refine ⟨.refl item p s, h, fun l hl => ?_, fun l hl => absurd hl List.not_mem_nil, rfl, hc, fun h0 => ?_⟩
    · rw [List.append_nil] at hl
      exact (mem_syncLines hl).2
    · have hmem : item ∈ wantedItems tracked lines := by
        by_contra hno
        have := wanted_of_not_mem ht hno
        omega
      have := fits_of_assert hmem hok
      exact ⟨(hm hmem).resolve_left List.not_mem_nil, by omega⟩
  | outOfStock hok hnew =>
    exact ⟨(Leaves.succeedVoid hx.1 hnew).release, (h.succeedVoid hx.1 hnew).release p, trivial⟩
  | settleVoid hnew =>
    exact ⟨(Leaves.succeedVoid hx hnew).release, (h.succeedVoid hx hnew).release p, trivial⟩
  | @refund q order o status hq hd hst ho hv =>
    refine ⟨.refl item p s, h, fun l hl => ?_, fun l hl => absurd hl List.not_mem_nil, fun hne => ?_⟩
    · rw [List.append_nil] at hl
      exact (mem_syncLines hl).2
    · -- a line is moved for an order that is paid or refunded, so not for one that settled late
      rw [List.append_nil] at hne
      obtain ⟨l, hl⟩ := List.exists_mem_of_ne_nil _ hne
      have hstatus := (mem_syncLines hl).1
      refine ShopStore.counted_iff.2 ⟨ShopStore.active_iff.2 ⟨q, hq, hd, by rw [hst]; simp⟩, fun o' ho' hlate => ?_⟩
      cases ho'
      obtain ⟨row, hrow, hvoid⟩ := h.late _ hlate
      cases hrow.symm.trans ho
      rw [hv hvoid] at hstatus
      rcases hstatus with hstatus | hstatus <;> cases hstatus
  | @moveLine order paying status l left moving hmv hl =>
    obtain ⟨hlines, hlocks, hpay⟩ := hx
    refine ⟨.lockItem hl, ⟨h.paymentIds, h.late, h.within⟩, fun l' hl' => hlines l' ?_, fun l' hl' => ?_, ?_⟩
    · simp only [List.mem_append, List.mem_cons] at hl' ⊢
      tauto
    · by_cases he : l'.itemId = l.itemId
      · rw [he]
        exact Function.update_self _ _ _
      · rcases List.mem_append.1 hl' with hl' | hl'
        · exact (Function.update_of_ne he _ _).trans (hlocks l' hl')
        · rw [List.mem_singleton.1 hl'] at he
          exact absurd rfl he
    · cases paying with
      | none => exact fun _ => hpay (by simp)
      | some c =>
        obtain ⟨rfl, hc, hf⟩ := hpay
        refine ⟨rfl, ⟨hc.row, hc.lock, hc.order⟩, fun h0 => ⟨?_, (hf h0).2⟩⟩
        by_cases he : item = l.itemId
        · rw [he]
          exact Function.update_self _ _ _
        · exact (Function.update_of_ne he _ _).trans (hf h0).1
  | @skipLine order paying status l left moving hmv =>
    obtain ⟨hlines, hlocks, hpay⟩ := hx
    refine ⟨.refl item p s, h, fun l' hl' => hlines l' ?_, hlocks, ?_⟩
    · exact List.mem_cons_of_mem l hl'
    · cases paying with
      | none => exact fun _ => hpay (by simp)
      | some c => exact hpay
  | @settled order c status moving newId hnew =>
    obtain ⟨hlines, hlocks, rfl, hc, hf⟩ := hx
    have hleaves := Leaves.succeed hc hnew hf
    obtain ⟨hheld, hcounted⟩ := h.succeed hc hnew hf
    have hlock : (s.succeed c newId).itemLock = s.itemLock := by
      obtain ⟨payments, he⟩ := s.succeed_rows c newId
      rw [he]
    have hown : MovesOwn p (s.succeed c newId) c.order moving := fun l hl =>
      ⟨hleaves.lines l (hlines l hl).1, (hlines l hl).2, hlock ▸ hlocks l hl⟩
    exact ⟨(hleaves.foldl hown hlock status).release, (hheld.foldl hown (fun _ => hcounted) status).release p, trivial⟩
  | @refunded order status moving =>
    obtain ⟨hlines, hlocks, hcounted⟩ := hx
    have hown : MovesOwn p s order moving := fun l hl => ⟨(hlines l hl).1, (hlines l hl).2, hlocks l hl⟩
    exact ⟨((Leaves.refl item p s).foldl hown rfl status).release, (h.foldl hown hcounted status).release p, trivial⟩
  | @fail q hq hst =>
    refine ⟨.refl item p s, h, fun r hr hid => ?_⟩
    rw [h.row_unique hq hr hid]
    exact ShopStore.active_iff.2 ⟨q, hq, rfl, by rw [hst]; simp⟩
  | failed => exact ⟨.failed hx, h.failed hx, trivial⟩
  | restock _ hl hn => exact ⟨.restock hl _, h.restock hn, trivial⟩
  | rollback => exact ⟨(Leaves.refl item p s).release, h.release p, trivial⟩

theorem shop_kept (ht : tracked item = true) :
    Kept (fun p : π => ShopStep tracked item p) (HeldWithinStock item) fun p => TakesStock tracked item p where
  store hs hI hJ := (hs.keeps ht hI hJ).2.1
  own hs hI hJ := (hs.keeps ht hI hJ).2.2
  others hs hq hI hJ hJq := hJq.leaves (hs.keeps ht hI hJ).1 hq

/-- No transaction is under way, and stock covers the units held. -/
structure ShopOpen (item : Id) (w : World π (ShopStore π) ShopPlace) : Prop where
  idle : ∀ p, w.place p = .idle
  paymentIds : w.store.payments.Pairwise fun q q' => q.id ≠ q'.id
  late : w.store.late = []
  stocked : w.store.unitsOn item w.store.active ≤ w.store.stock item

omit [DecidableEq π] in
theorem ShopOpen.knows {w : World π (ShopStore π) ShopPlace} (h : ShopOpen item w) :
    Knows (HeldWithinStock item) (fun p => TakesStock tracked item p) w := by
  refine ⟨⟨h.paymentIds, fun o ho => ?_, le_trans ?_ h.stocked⟩, fun p => ?_⟩
  · rw [h.late] at ho
    cases ho
  · exact ShopStore.unitsOn_le rfl fun l _ _ hs hc => ⟨hs, (ShopStore.counted_iff.1 hc).1⟩
  · rw [h.idle p]
    trivial

/-- **Online orders never oversell**: through placing, settling, failing and refunding and restocking in
any order, a tracked item's stock is at least the units on unsold lines of documents with a live
payment, but for void orders whose payment settled when they held nothing any more. -/
theorem shop_never_oversells (ht : tracked item = true) {w w' : World π (ShopStore π) ShopPlace} {ps : List π}
    (hw : ShopOpen item w) (hr : Run (Interleaved fun p => ShopStep tracked item p) w ps w') :
    0 ≤ w'.store.stock item ∧
      (w'.store.unitsOn item fun d => w'.store.active d && decide (∀ o ∈ w'.store.late, d ≠ .order o)) ≤
        w'.store.stock item ∧
      ∀ o ∈ w'.store.late, ∃ order, w'.store.orders o = some order ∧ order.status = .void := by
  obtain ⟨h, -⟩ := (shop_kept ht).run hr hw.knows
  have hle : (w'.store.unitsOn item fun d => w'.store.active d && decide (∀ o ∈ w'.store.late, d ≠ .order o)) ≤
      w'.store.reserved item := by
    refine ShopStore.unitsOn_le rfl fun l _ _ hs hc => ⟨hs, ?_⟩
    simp only [Bool.and_eq_true, decide_eq_true_eq] at hc
    exact ShopStore.counted_iff.2 ⟨hc.1, fun o ho hm => hc.2 o hm ho⟩
  have h0 := w'.store.unitsOn_nonneg item w'.store.counted
  exact ⟨h0.trans h.within, hle.trans h.within, h.late⟩

end

/-! ## A shop with one tea -/

def teaLine (id order : Id) : StockLine := ⟨id, .order order, "tea", 1, one_quantity_pos⟩

/-- One tea; the order A expired and its payment was canceled. -/
def teaShop : ShopStore Unit where
  stock := fun i => if i = "tea" then 1 else 0
  orders := fun o => if o = "A" then some ⟨.online, .void⟩ else none
  lines := [teaLine "A1" "A"]
  payments := [⟨"pA", .order "A", .canceled⟩]
  movements := []
  itemLock := fun _ => none
  orderLock := fun _ => none
  late := []

def teaWorld : World Unit (ShopStore Unit) ShopPlace := ⟨teaShop, fun _ => .idle⟩

theorem teaWorld_open : ShopOpen "tea" teaWorld := ⟨fun _ => rfl, by decide, rfl, by decide⟩

/-- The order B takes the tea and is paid: the tea leaves the stock, and nothing is held. -/
theorem teaOrder_sold : ∃ w' : World Unit (ShopStore Unit) ShopPlace, w'.store.stock "tea" = 0 ∧
    (0 ≤ w'.store.stock "tea" ∧
      (w'.store.unitsOn "tea" fun d => w'.store.active d && decide (∀ o ∈ w'.store.late, d ≠ .order o)) ≤
        w'.store.stock "tea" ∧
      ∀ o ∈ w'.store.late, ∃ order, w'.store.orders o = some order ∧ order.status = .void) := by
  have hrun : ∃ w', Run (Interleaved fun p => ShopStep (fun _ => true) "tea" p) teaWorld
      [(), (), (), (), (), (), (), (), (), (), ()] w' ∧ w'.store.stock "tea" = 0 := by
    refine ⟨_,
      (.cons (.from rfl (@ShopStep.order _ _ _ _ _ _ "B" [teaLine "B1" "B"] (by decide)))
      (.cons (.from rfl (.orderItem rfl))
      (.cons (.from rfl (.orderCheck (by decide +kernel)))
      (.cons (.from rfl (@ShopStep.orderCommit _ _ _ _ _ _ _ _ "pB"
        ⟨by decide, by decide, by decide, by decide⟩))
      (.cons (.from rfl (@ShopStep.read _ _ _ _ _ _ ⟨"pB", .order "B", .pending⟩ "B" (by decide) rfl))
      (.cons (.from rfl (@ShopStep.lockOpen _ _ _ _ _ _ _ ⟨.online, .open⟩ rfl (by decide) rfl rfl (by decide)))
      (.cons (.from rfl .lines)
      (.cons (.from rfl (.checkItem rfl))
      (.cons (.from rfl (@ShopStep.check _ _ _ _ _ _ _ _ .paid (by decide +kernel)))
      (.cons (.from rfl (@ShopStep.moveLine _ _ _ _ _ _ _ _ _ (teaLine "B1" "B") [] _ (by decide +kernel)
        (by decide)))
      (.cons (.from rfl (@ShopStep.settled _ _ _ _ _ _ _ _ _ _ "new" (by decide))) .nil))))))))))), ?_⟩
    decide +kernel
  obtain ⟨w', hrun, hstock⟩ := hrun
  exact ⟨w', hstock, shop_never_oversells rfl teaWorld_open hrun⟩

/-- The order B takes the tea, and A's payment settles after all. -/
theorem late_payment_holds : ¬∀ (ps : List Unit) (w' : World Unit (ShopStore Unit) ShopPlace),
    Run (Interleaved fun p => ShopStep (fun _ => true) "tea" p) teaWorld ps w' →
      w'.store.unitsOn "tea" w'.store.active ≤ w'.store.stock "tea" := by
  intro h
  have hle := h [(), (), (), (), (), (), ()] _
    (.cons (.from rfl (@ShopStep.order _ _ _ _ _ _ "B" [teaLine "B1" "B"] (by decide)))
    (.cons (.from rfl (.orderItem rfl))
    (.cons (.from rfl (.orderCheck (by decide +kernel)))
    (.cons (.from rfl (@ShopStep.orderCommit _ _ _ _ _ _ _ _ "pB"
      ⟨by decide, by decide, by decide, by decide⟩))
    (.cons (.from rfl (@ShopStep.read _ _ _ _ _ _ ⟨"pA", .order "A", .canceled⟩ "A" (by decide) rfl))
    (.cons (.from rfl (@ShopStep.lockVoid _ _ _ _ _ _ _ ⟨.online, .void⟩ rfl (by decide) rfl (by decide)))
    (.cons (.from rfl (@ShopStep.settleVoid _ _ _ _ _ _ _ "new" (by decide))) .nil)))))))
  exact absurd hle (by decide +kernel)

end ClientBridge
