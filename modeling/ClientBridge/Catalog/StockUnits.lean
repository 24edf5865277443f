import ClientBridge.Catalog.Stock

/-!
# Units held

`unitsOn` counts the units of unsold lines.  Moving a line out of stock takes its units off its
document (`syncMove_within`), and a line moves once, so stock and units held go down together.
-/

namespace ClientBridge

/-! ## Counting units -/

theorem StockLine.units_nonneg (l : StockLine) : 0 ≤ l.units := by
  have := l.quantity_pos
  exact Int.floor_nonneg.2 (by positivity)

namespace ShopStore

variable {π : Type}

theorem unitsOn_nonneg (s : ShopStore π) (item : Id) (c : SaleDocument → Bool) : 0 ≤ s.unitsOn item c := by
  refine List.sum_nonneg fun n hn => ?_
  obtain ⟨l, -, rfl⟩ := List.mem_map.1 hn
  exact l.units_nonneg

/-- What a line counts for. -/
def lineUnits (s : ShopStore π) (item : Id) (c : SaleDocument → Bool) (l : StockLine) : Int :=
  if l.itemId = item ∧ s.sold l.id = false ∧ c l.document = true then l.units else 0

theorem unitsOn_eq (s : ShopStore π) (item : Id) (c : SaleDocument → Bool) :
    s.unitsOn item c = (s.lines.map (s.lineUnits item c)).sum := by
  rw [unitsOn]
  induction s.lines with
  | nil => rfl
  | cons l lines ih =>
    by_cases hl : l.itemId = item ∧ s.sold l.id = false ∧ c l.document = true
    · simp [lineUnits, hl, ih]
    · rw [List.filter_cons_of_neg (by simpa using hl), ih, List.map_cons, List.sum_cons, lineUnits, if_neg hl]
      omega

/-- Fewer unsold lines, or of fewer documents, hold no more. -/
theorem unitsOn_le {s s' : ShopStore π} {item : Id} {c c' : SaleDocument → Bool} (hlines : s'.lines = s.lines)
    (h : ∀ l ∈ s.lines, l.itemId = item → s'.sold l.id = false → c' l.document = true →
      s.sold l.id = false ∧ c l.document = true) : s'.unitsOn item c' ≤ s.unitsOn item c := by
  rw [unitsOn_eq, unitsOn_eq, hlines]
  refine List.sum_le_sum fun l hl => ?_
  have h0 := l.units_nonneg
  by_cases hc : l.itemId = item ∧ s'.sold l.id = false ∧ c' l.document = true
  · rw [lineUnits, lineUnits, if_pos hc, if_pos ⟨hc.1, h l hl hc.1 hc.2.1 hc.2.2⟩]
  · rw [lineUnits, if_neg hc, lineUnits]
    split <;> omega

theorem unitsOn_le_add (s : ShopStore π) (item : Id) {c c₁ c₂ : SaleDocument → Bool}
    (h : ∀ d, c d = true → c₁ d = true ∨ c₂ d = true) :
    s.unitsOn item c ≤ s.unitsOn item c₁ + s.unitsOn item c₂ := by
  rw [unitsOn_eq, unitsOn_eq, unitsOn_eq, ← List.sum_map_add]
  refine List.sum_le_sum fun l _ => ?_
  have h0 := l.units_nonneg
  by_cases hc : l.itemId = item ∧ s.sold l.id = false ∧ c l.document = true
  · obtain ⟨hi, hs, hc⟩ := hc
    obtain hc' | hc' := h _ hc
    · simp only [lineUnits, hi, hs, hc, hc', and_self, if_true]
      split <;> omega
    · simp only [lineUnits, hi, hs, hc, hc', and_self, if_true]
      split <;> omega
  · simp only [lineUnits, if_neg hc]
    split <;> split <;> omega

/-! ## Moving units out of stock -/

theorem moveOnce_lines (s : ShopStore π) (l : StockLine) (reason : MoveReason) (n : Int) :
    (s.moveOnce l reason n).lines = s.lines := by
  unfold moveOnce
  split <;> rfl

theorem sold_moveOnce {s : ShopStore π} {l : StockLine} {reason : MoveReason} {n : Int} {lineId : Id}
    (h : (s.moveOnce l reason n).sold lineId = false) : s.sold lineId = false := by
  unfold moveOnce at h
  split at h
  · exact h
  · simp only [sold, decide_eq_false_iff_not, List.mem_cons, not_or] at h ⊢
    exact h.2

/-- The units of a line move off its document once. -/
theorem unitsOn_moveOnce_sale {s : ShopStore π} {l : StockLine} (hl : l ∈ s.lines) (hs : (l.id, .sale) ∉ s.movements)
    {c : SaleDocument → Bool} (hc : c l.document = true) (n : Int) :
    (s.moveOnce l .sale n).unitsOn l.itemId c + l.units ≤ s.unitsOn l.itemId c := by
  have hsold : (s.moveOnce l .sale n).sold l.id = true := by simp [moveOnce, hs, sold]
  rw [unitsOn_eq, unitsOn_eq, moveOnce_lines]
  have hle : ∀ l' ∈ s.lines, (s.moveOnce l .sale n).lineUnits l.itemId c l' ≤ s.lineUnits l.itemId c l' := by
    intro l' _
    have h0 := l'.units_nonneg
    unfold lineUnits
    by_cases hc : l'.itemId = l.itemId ∧ (s.moveOnce l .sale n).sold l'.id = false ∧ c l'.document = true
    · rw [if_pos hc, if_pos ⟨hc.1, sold_moveOnce hc.2.1, hc.2.2⟩]
    · rw [if_neg hc]
      split <;> omega
  obtain ⟨pre, post, hpp⟩ := List.append_of_mem hl
  rw [hpp] at hle ⊢
  have hpre := List.sum_le_sum fun l' (hl' : l' ∈ pre) => hle l' (by simp [hl'])
  have hpost := List.sum_le_sum fun l' (hl' : l' ∈ post) => hle l' (by simp [hl'])
  have hline : (s.moveOnce l .sale n).lineUnits l.itemId c l = 0 := by simp [lineUnits, hsold]
  have hline' : s.lineUnits l.itemId c l = l.units := by simp [lineUnits, sold, hs, hc]
  simp only [List.map_append, List.map_cons, List.sum_append, List.sum_cons, hline, hline']
  omega

/-- A line of the documents picked moves no more out of stock than off them. -/
theorem syncMove_within {s : ShopStore π} {status : DocumentState} {l : StockLine} {item : Id}
    {c : SaleDocument → Bool} (hl : l ∈ s.lines) (hc : c l.document = true) :
    s.stock item - s.unitsOn item c ≤
      (s.syncMove status l).stock item - (s.syncMove status l).unitsOn item c := by
  have hle : ∀ reason n, (s.moveOnce l reason n).unitsOn item c ≤ s.unitsOn item c := fun reason n =>
    unitsOn_le (moveOnce_lines s l reason n) fun _ _ _ hs hc => ⟨sold_moveOnce hs, hc⟩
  unfold syncMove
  split
  · by_cases hs : (l.id, .sale) ∈ s.movements
    · simp [moveOnce, hs]
    · by_cases hi : l.itemId = item
      · subst hi
        have h := unitsOn_moveOnce_sale hl hs hc (-l.units)
        have hstock : (s.moveOnce l .sale (-l.units)).stock l.itemId = s.stock l.itemId - l.units := by
          simp [moveOnce, hs, sub_eq_add_neg]
        omega
      · have h := hle .sale (-l.units)
        have hstock : (s.moveOnce l .sale (-l.units)).stock item = s.stock item := by
          simp [moveOnce, hs, Function.update_of_ne (Ne.symm hi)]
        omega
  · have h := hle .refund l.units
    have h0 := l.units_nonneg
    have hstock : s.stock item ≤ (s.moveOnce l .refund l.units).stock item := by
      unfold moveOnce
      split
      · exact le_refl _
      · by_cases hi : l.itemId = item
        · subst hi
          simpa using h0
        · simp [Function.update_of_ne (Ne.symm hi)]
    omega

/-- Moving lines changes stock and movements only, and only the stock of their items. -/
theorem foldl_syncMove (status : DocumentState) (moving : List StockLine) (s : ShopStore π) :
    ∃ stock movements, moving.foldl (syncMove status) s = { s with stock := stock, movements := movements } ∧
      (∀ m ∈ s.movements, m ∈ movements) ∧ ∀ i, (∀ l ∈ moving, l.itemId ≠ i) → stock i = s.stock i := by
  have hone : ∀ (s : ShopStore π) l reason n, ∃ stock movements,
      s.moveOnce l reason n = { s with stock := stock, movements := movements } ∧
      (∀ m ∈ s.movements, m ∈ movements) ∧ ∀ i, l.itemId ≠ i → stock i = s.stock i := by
    intro s l reason n
    unfold moveOnce
    split
    · exact ⟨s.stock, s.movements, rfl, fun _ h => h, fun _ _ => rfl⟩
    · exact ⟨_, _, rfl, fun _ h => List.mem_cons_of_mem _ h, fun i hi => Function.update_of_ne (Ne.symm hi) _ _⟩
  induction moving generalizing s with
  | nil => exact ⟨s.stock, s.movements, rfl, fun _ h => h, fun _ _ => rfl⟩
  | cons l moving ih =>
    have hmove : ∃ stock movements, s.syncMove status l = { s with stock := stock, movements := movements } ∧
        (∀ m ∈ s.movements, m ∈ movements) ∧ ∀ i, l.itemId ≠ i → stock i = s.stock i := by
      unfold syncMove
      split
      · exact hone s l .sale (-l.units)
      · exact hone s l .refund l.units
    obtain ⟨stock, movements, he, hm, hs⟩ := hmove
    obtain ⟨stock', movements', he', hm', hs'⟩ := ih (s.syncMove status l)
    rw [he] at he' hm' hs'
    refine ⟨stock', movements', ?_, fun m h => hm' m (hm m h), fun i hi => ?_⟩
    · rw [List.foldl_cons, he, he']
    · rw [hs' i fun l' hl' => hi l' (List.mem_cons_of_mem l hl')]
      exact hs i (hi l List.mem_cons_self)

theorem foldl_syncMove_within {status : DocumentState} {item : Id} {c : SaleDocument → Bool}
    {moving : List StockLine} {s : ShopStore π} (h : ∀ l ∈ moving, l ∈ s.lines ∧ c l.document = true)
    (hs : s.unitsOn item c ≤ s.stock item) :
    (moving.foldl (syncMove status) s).unitsOn item c ≤ (moving.foldl (syncMove status) s).stock item := by
  induction moving generalizing s with
  | nil => exact hs
  | cons l moving ih =>
    obtain ⟨hl, hc⟩ := h l List.mem_cons_self
    have hlines : (s.syncMove status l).lines = s.lines := by
      unfold syncMove
      split <;> exact moveOnce_lines s l _ _
    have hw := @syncMove_within _ s status l item c hl hc
    refine ih (fun l' hl' => ?_) (by omega)
    obtain ⟨hl', hc'⟩ := h l' (List.mem_cons_of_mem l hl')
    exact ⟨hlines ▸ hl', hc'⟩

/-! ## What is held -/

/-- A document holds the units of its unsold lines while it has a live payment, unless it settled late. -/
def counted (s : ShopStore π) (document : SaleDocument) : Bool :=
  s.active document && match document with
    | .order o => decide (o ∉ s.late)
    | .invoice _ => true

def reserved (s : ShopStore π) (item : Id) : Int := s.unitsOn item s.counted

def reservedBut (s : ShopStore π) (item : Id) (document : SaleDocument) : Int :=
  s.unitsOn item fun d => s.counted d && decide (d ≠ document)

def onDocument (s : ShopStore π) (item : Id) (document : SaleDocument) : Int :=
  s.unitsOn item fun d => decide (d = document)

theorem reserved_le (s : ShopStore π) (item : Id) (document : SaleDocument) :
    s.reserved item ≤ s.onDocument item document + s.reservedBut item document := by
  refine unitsOn_le_add s item fun d hd => ?_
  by_cases h : d = document
  · exact .inl (by simpa using h)
  · exact .inr (by simp [hd, h])

theorem reservedBut_le (s : ShopStore π) (item : Id) (document : SaleDocument) :
    s.reservedBut item document ≤ s.reserved item :=
  unitsOn_le rfl fun _ _ _ hs hc => ⟨hs, (Bool.and_eq_true _ _ ▸ hc).1⟩

theorem reservedBut_le_held (s : ShopStore π) (item : Id) (document : SaleDocument) :
    s.reservedBut item document ≤ s.held item document := by
  refine unitsOn_le rfl fun l _ _ hs hc => ⟨hs, ?_⟩
  simp only [counted, Bool.and_eq_true] at hc ⊢
  exact ⟨hc.1.1, hc.2⟩

theorem active_iff {s : ShopStore π} {document : SaleDocument} :
    s.active document = true ↔ ∃ q ∈ s.payments, q.document = document ∧ q.status ≠ .canceled := by
  simp [active]

theorem active_setStatus {s : ShopStore π} {id : Id} {status : PaymentStatus} (h : status ≠ .canceled)
    {document : SaleDocument} : (s.setStatus id status).active document = true ↔
      s.active document = true ∨ ∃ q ∈ s.payments, q.id = id ∧ q.document = document := by
  simp only [active_iff, setStatus, List.mem_map]
  constructor
  · rintro ⟨_, ⟨q, hq, rfl⟩, hd, hs⟩
    by_cases hid : q.id = id
    · rw [if_pos hid] at hd
      exact .inr ⟨q, hq, hid, hd⟩
    · rw [if_neg hid] at hd hs
      exact .inl ⟨q, hq, hd, hs⟩
  · rintro (⟨q, hq, hd, hs⟩ | ⟨q, hq, hid, hd⟩)
    · refine ⟨_, ⟨q, hq, rfl⟩, ?_, ?_⟩
      · split <;> exact hd
      · split
        · exact h
        · exact hs
    · refine ⟨_, ⟨q, hq, rfl⟩, ?_, ?_⟩
      · rw [if_pos hid]
        exact hd
      · rw [if_pos hid]
        exact h

end ShopStore

end ClientBridge
