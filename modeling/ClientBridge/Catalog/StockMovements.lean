import ClientBridge.Catalog.StockUnits
import ClientBridge.Library.Runs

/-!
# Stock movements

Every change of an item's stock is a row of `inventory`, and `items.stock_on_hand` is the running
total.  When a document's state is derived again, `sync_parent_stock` moves its tracked lines out
of stock if it reads paid, and back if it reads refunded.  A line has at most one row for each
reason, so each direction is taken once.
-/

namespace ClientBridge

open Runs

inductive StockReason where
  | sale | refund | restock | correction
  deriving DecidableEq, Repr

/-- A row of `inventory`. -/
structure StockMovement where
  itemId : Id
  lineId : Option Id
  reason : StockReason
  quantity : Int
  deriving DecidableEq, Repr

structure StockItem where
  trackStock : Bool
  stockOnHand : Option Int
  deriving DecidableEq, Repr

/-- The items, the lines that sell them, and the movements. -/
structure StockBook where
  items : Id → Option StockItem
  lines : List StockLine
  movements : List StockMovement

namespace StockBook

def stock (b : StockBook) (item : Id) : Int := (b.items item).elim 0 fun i => i.stockOnHand.getD 0

def tracked (b : StockBook) (item : Id) : Bool := (b.items item).any (·.trackStock)

def hasMovement (b : StockBook) (lineId : Id) (reason : StockReason) : Bool :=
  b.movements.any fun m => decide (m.lineId = some lineId ∧ m.reason = reason)

/-- A movement and its item's new total. -/
def post (b : StockBook) (i : StockItem) (m : StockMovement) : StockBook :=
  { b with
    items := Function.update b.items m.itemId (some { i with stockOnHand := some (i.stockOnHand.getD 0 + m.quantity) })
    movements := b.movements ++ [m] }

/-- `_move_once`. -/
def moveOnce (b : StockBook) (itemId lineId : Id) (reason : StockReason) (quantity : Int) : StockBook :=
  match b.items itemId with
  | none => b
  | some i => if b.hasMovement lineId reason then b else b.post i ⟨itemId, some lineId, reason, quantity⟩

/-- A line's turn in `sync_parent_stock`. -/
def syncLine (status : DocumentState) (b : StockBook) (l : StockLine) : StockBook :=
  if l.units ≤ 0 then b
  else if status = .paid then b.moveOnce l.itemId l.id .sale (-l.units)
  else if b.hasMovement l.id .sale then b.moveOnce l.itemId l.id .refund l.units
  else b

/-- A document's tracked lines, in item order. -/
def trackedLines (b : StockBook) (document : SaleDocument) : List StockLine :=
  (b.lines.filter fun l => decide (l.document = document) && b.tracked l.itemId).insertionSort
    fun l l' => l.itemId ≤ l'.itemId

/-- `sync_parent_stock`. -/
def syncParentStock (b : StockBook) (document : SaleDocument) (status : DocumentState) : StockBook :=
  if status = .paid ∨ status = .refunded then (b.trackedLines document).foldl (syncLine status) b else b

/-- `StockService.restock`, by a count that is not zero. -/
def restock (b : StockBook) (itemId : Id) (quantity : Int) : Except String StockBook :=
  match b.items itemId with
  | none => .error "item not found"
  | some i =>
    if i.trackStock then
      .ok (b.post i ⟨itemId, none, if quantity < 0 then .correction else .restock, quantity⟩)
    else .error "turn on stock tracking for this product first"

/-- The net of a line's movements. -/
def net (b : StockBook) (lineId : Id) : Int :=
  ((b.movements.filter fun m => decide (m.lineId = some lineId)).map (·.quantity)).sum

/-- The sum of an item's movements. -/
def moved (b : StockBook) (item : Id) : Int :=
  ((b.movements.filter fun m => decide (m.itemId = item)).map (·.quantity)).sum

end StockBook

/-- A document's state is derived again, or somebody counts an item. -/
inductive StockEvent where
  | sync (document : SaleDocument) (status : DocumentState)
  | restock (itemId : Id)
  deriving DecidableEq, Repr

inductive StockMoveStep (b : StockBook) : StockEvent → StockBook → Prop
  | sync (document : SaleDocument) (status : DocumentState) :
      StockMoveStep b (.sync document status) (b.syncParentStock document status)
  | restock {itemId : Id} {quantity : Int} {b' : StockBook} (h : b.restock itemId quantity = .ok b') :
      StockMoveStep b (.restock itemId) b'

/-! ## One movement -/

namespace StockBook

variable {b : StockBook}

theorem hasMovement_post (i : StockItem) (m : StockMovement) (lineId : Id) (reason : StockReason) :
    (b.post i m).hasMovement lineId reason = true ↔
      b.hasMovement lineId reason = true ∨ (m.lineId = some lineId ∧ m.reason = reason) := by
  simp [hasMovement, post]

theorem net_post (i : StockItem) (m : StockMovement) (lineId : Id) :
    (b.post i m).net lineId = b.net lineId + if m.lineId = some lineId then m.quantity else 0 := by
  unfold net post
  rw [List.filter_append, List.map_append, List.sum_append, List.filter_singleton]
  by_cases h : m.lineId = some lineId
  · simp [h]
  · simp [h]

theorem moved_post (i : StockItem) (m : StockMovement) (item : Id) :
    (b.post i m).moved item = b.moved item + if m.itemId = item then m.quantity else 0 := by
  unfold moved post
  rw [List.filter_append, List.map_append, List.sum_append, List.filter_singleton]
  by_cases h : m.itemId = item
  · simp [h]
  · simp [h]

theorem stock_post {i : StockItem} {m : StockMovement} (hi : b.items m.itemId = some i) (item : Id) :
    (b.post i m).stock item = b.stock item + if m.itemId = item then m.quantity else 0 := by
  unfold stock post
  by_cases h : m.itemId = item
  · subst h
    simp [hi]
  · simp [h, Function.update_of_ne (Ne.symm h)]

theorem tracked_post {i : StockItem} {m : StockMovement} (hi : b.items m.itemId = some i) (item : Id) :
    (b.post i m).tracked item = b.tracked item := by
  unfold tracked post
  by_cases h : m.itemId = item
  · subst h
    simp [hi]
  · simp [Function.update_of_ne (Ne.symm h)]

/-! ## A line's turn -/

/-- The reason a sync moves lines for. -/
def syncReason (status : DocumentState) : StockReason := if status = .paid then .sale else .refund

def syncQuantity (status : DocumentState) (l : StockLine) : Int := if status = .paid then -l.units else l.units

/-- Whether a line's turn comes to `_move_once`. -/
def Moves (status : DocumentState) (b : StockBook) (l : StockLine) : Prop :=
  0 < l.units ∧ (status = .paid ∨ b.hasMovement l.id .sale = true)

/-- A line's turn posts its movement, or finds it there, or does not come to it. -/
theorem syncLine_cases (status : DocumentState) {l : StockLine} (ht : b.tracked l.itemId = true) :
    (Moves status b l ∧ b.hasMovement l.id (syncReason status) = false ∧ ∃ i, b.items l.itemId = some i ∧
      syncLine status b l = b.post i ⟨l.itemId, some l.id, syncReason status, syncQuantity status l⟩) ∨
    (syncLine status b l = b ∧ (Moves status b l → b.hasMovement l.id (syncReason status) = true)) := by
  obtain ⟨i, hi⟩ : ∃ i, b.items l.itemId = some i := by
    cases hc : b.items l.itemId with
    | none => simp [tracked, hc] at ht
    | some i => exact ⟨i, rfl⟩
  unfold syncLine Moves
  by_cases hu : l.units ≤ 0
  · exact .inr ⟨if_pos hu, fun h => by omega⟩
  · rw [if_neg hu]
    by_cases hp : status = .paid
    · simp only [hp, if_true, moveOnce, hi, syncReason, syncQuantity]
      by_cases hm : b.hasMovement l.id .sale = true
      · exact .inr ⟨by rw [if_pos hm], fun _ => hm⟩
      · rw [if_neg hm]
        exact .inl ⟨⟨by omega, .inl trivial⟩, by simpa using hm, i, rfl, rfl⟩
    · simp only [hp, if_false, moveOnce, hi, syncReason, syncQuantity, false_or]
      by_cases hs : b.hasMovement l.id .sale = true
      · rw [if_pos hs]
        by_cases hm : b.hasMovement l.id .refund = true
        · exact .inr ⟨by rw [if_pos hm], fun _ => hm⟩
        · rw [if_neg hm]
          exact .inl ⟨⟨by omega, hs⟩, by simpa using hm, i, rfl, rfl⟩
      · exact .inr ⟨if_neg hs, fun h => absurd h.2 hs⟩

theorem syncReason_ne {status : DocumentState} (h : status ≠ .paid) : syncReason status ≠ .sale := by
  simp [syncReason, h]

section
variable {status : DocumentState} {l : StockLine}

theorem hasMovement_syncLine (ht : b.tracked l.itemId = true) (lineId : Id) (reason : StockReason) :
    (syncLine status b l).hasMovement lineId reason = true ↔ b.hasMovement lineId reason = true ∨
      (Moves status b l ∧ l.id = lineId ∧ syncReason status = reason) := by
  obtain ⟨hm, -, i, -, h⟩ | ⟨h, hm⟩ := syncLine_cases status ht
  · rw [h, hasMovement_post]
    simp [hm]
  · rw [h]
    constructor
    · exact .inl
    · rintro (h' | ⟨hml, rfl, rfl⟩)
      · exact h'
      · exact hm hml

theorem tracked_syncLine (ht : b.tracked l.itemId = true) (item : Id) :
    (syncLine status b l).tracked item = b.tracked item := by
  obtain ⟨-, -, i, hi, h⟩ | ⟨h, -⟩ := syncLine_cases status ht
  · rw [h]
    exact tracked_post hi item
  · rw [h]

theorem lines_syncLine (ht : b.tracked l.itemId = true) : (syncLine status b l).lines = b.lines := by
  obtain ⟨-, -, i, -, h⟩ | ⟨h, -⟩ := syncLine_cases status ht
  · rw [h]
    rfl
  · rw [h]

/-- A turn changes no other line's. -/
theorem moves_syncLine (ht : b.tracked l.itemId = true) (l' : StockLine) :
    Moves status (syncLine status b l) l' ↔ Moves status b l' := by
  unfold Moves
  by_cases hp : status = .paid
  · simp [hp]
  · rw [hasMovement_syncLine ht]
    simp [hp, syncReason]

end

/-! ## A sync -/

section
variable {status : DocumentState} {ls : List StockLine}

/-- What the turns of some tracked lines keep, if each keeps it. -/
theorem foldl_syncLine {P : StockBook → Prop} (hls : ∀ l ∈ ls, b.tracked l.itemId = true)
    (hstep : ∀ (c : StockBook) l, l ∈ ls → c.tracked l.itemId = true → P c → P (syncLine status c l)) (h : P b) :
    P (ls.foldl (syncLine status) b) := by
  induction ls generalizing b with
  | nil => exact h
  | cons l ls ih =>
    have ht := hls l List.mem_cons_self
    refine ih (fun l' hl' => ?_) (fun c l' hl' => hstep c l' (List.mem_cons_of_mem l hl'))
      (hstep b l List.mem_cons_self ht h)
    rw [tracked_syncLine ht]
    exact hls l' (List.mem_cons_of_mem l hl')

theorem hasMovement_foldl (hls : ∀ l ∈ ls, b.tracked l.itemId = true) (lineId : Id) (reason : StockReason) :
    (ls.foldl (syncLine status) b).hasMovement lineId reason = true ↔ b.hasMovement lineId reason = true ∨
      ∃ l ∈ ls, Moves status b l ∧ l.id = lineId ∧ syncReason status = reason := by
  induction ls generalizing b with
  | nil => simp
  | cons l ls ih =>
    have ht := hls l List.mem_cons_self
    rw [List.foldl_cons, ih fun l' hl' => (tracked_syncLine ht _).trans (hls l' (List.mem_cons_of_mem l hl')),
      hasMovement_syncLine ht]
    simp only [moves_syncLine ht, List.mem_cons, exists_eq_or_imp, or_assoc]

/-- Turns that find their movements change nothing. -/
theorem foldl_syncLine_eq (hls : ∀ l ∈ ls, b.tracked l.itemId = true)
    (h : ∀ l ∈ ls, Moves status b l → b.hasMovement l.id (syncReason status) = true) :
    ls.foldl (syncLine status) b = b := by
  induction ls with
  | nil => rfl
  | cons l ls ih =>
    have hl : syncLine status b l = b := by
      obtain ⟨hm, hf, -⟩ | ⟨hl, -⟩ := syncLine_cases status (hls l List.mem_cons_self)
      · rw [h l List.mem_cons_self hm] at hf
        cases hf
      · exact hl
    rw [List.foldl_cons, hl]
    exact ih (fun l' hl' => hls l' (List.mem_cons_of_mem l hl')) fun l' hl' => h l' (List.mem_cons_of_mem l hl')

end

theorem mem_trackedLines {document : SaleDocument} {l : StockLine} :
    l ∈ b.trackedLines document ↔ l ∈ b.lines ∧ l.document = document ∧ b.tracked l.itemId = true := by
  simp [trackedLines, List.mem_insertionSort]

variable {document : SaleDocument} {status : DocumentState}

theorem syncParentStock_of_not (h : ¬(status = .paid ∨ status = .refunded)) :
    b.syncParentStock document status = b := if_neg h

/-- What a sync keeps, if a turn of each of its lines keeps it. -/
theorem syncParentStock_keeps {P : StockBook → Prop} (hstep : ∀ (c : StockBook) l, l ∈ b.lines → c.tracked l.itemId = true →
    P c → P (syncLine status c l)) (h : P b) : P (b.syncParentStock document status) := by
  unfold syncParentStock
  split
  · exact foldl_syncLine (fun l hl => (mem_trackedLines.1 hl).2.2)
      (fun c l hl => hstep c l (mem_trackedLines.1 hl).1) h
  · exact h

theorem syncParentStock_rows (b : StockBook) (document : SaleDocument) (status : DocumentState) :
    (b.syncParentStock document status).lines = b.lines ∧
    ∀ item, (b.syncParentStock document status).tracked item = b.tracked item := by
  refine syncParentStock_keeps (P := fun c => c.lines = b.lines ∧ ∀ item, c.tracked item = b.tracked item) ?_ ⟨rfl, fun _ => rfl⟩
  rintro c l - ht ⟨hl, hi⟩
  exact ⟨(lines_syncLine ht).trans hl, fun item => (tracked_syncLine ht item).trans (hi item)⟩

theorem hasMovement_sync (h : status = .paid ∨ status = .refunded) (lineId : Id) (reason : StockReason) :
    (b.syncParentStock document status).hasMovement lineId reason = true ↔ b.hasMovement lineId reason = true ∨
      ∃ l ∈ b.trackedLines document, Moves status b l ∧ l.id = lineId ∧ syncReason status = reason := by
  unfold syncParentStock
  rw [if_pos h]
  exact hasMovement_foldl (fun l hl => (mem_trackedLines.1 hl).2.2) lineId reason

theorem eq_of_id {ls : List StockLine} (hn : (ls.map (·.id)).Nodup) {l l' : StockLine} (hl : l ∈ ls) (hl' : l' ∈ ls)
    (h : l.id = l'.id) : l = l' := List.inj_on_of_nodup_map hn hl hl' h

/-- What a sync books for a line. -/
theorem hasMovement_sync_line (hn : (b.lines.map (·.id)).Nodup) {l : StockLine} (hl : l ∈ b.lines)
    (ht : b.tracked l.itemId = true) (hu : 0 < l.units) (reason : StockReason) :
    (b.syncParentStock document status).hasMovement l.id reason = true ↔ b.hasMovement l.id reason = true ∨
      (l.document = document ∧ ((status = .paid ∧ reason = .sale) ∨
        (status = .refunded ∧ reason = .refund ∧ b.hasMovement l.id .sale = true))) := by
  by_cases hs : status = .paid ∨ status = .refunded
  · rw [hasMovement_sync hs]
    refine or_congr_right ⟨?_, ?_⟩
    · rintro ⟨l', hl', hm, hid, rfl⟩
      obtain ⟨hm', hd, -⟩ := mem_trackedLines.1 hl'
      obtain rfl := eq_of_id hn hm' hl hid
      refine ⟨hd, ?_⟩
      by_cases hp : status = .paid
      · exact .inl ⟨hp, by simp [syncReason, hp]⟩
      · exact .inr ⟨hs.resolve_left hp, by simp [syncReason, hp], hm.2.resolve_left hp⟩
    · rintro ⟨hd, ⟨rfl, rfl⟩ | ⟨rfl, rfl, hsold⟩⟩
      · exact ⟨l, mem_trackedLines.2 ⟨hl, hd, ht⟩, ⟨hu, .inl rfl⟩, rfl, rfl⟩
      · exact ⟨l, mem_trackedLines.2 ⟨hl, hd, ht⟩, ⟨hu, .inr hsold⟩, rfl, rfl⟩
  · rw [syncParentStock_of_not hs]
    refine (or_iff_left ?_).symm
    rintro ⟨-, ⟨hp, -⟩ | ⟨hr, -⟩⟩
    · exact hs (.inl hp)
    · exact hs (.inr hr)

/-- The same state again moves nothing. -/
theorem syncParentStock_again (b : StockBook) (document : SaleDocument) (status : DocumentState) :
    (b.syncParentStock document status).syncParentStock document status = b.syncParentStock document status := by
  by_cases h : status = .paid ∨ status = .refunded
  · obtain ⟨hlines, htracked⟩ := b.syncParentStock_rows document status
    have hmem : ∀ l, l ∈ (b.syncParentStock document status).trackedLines document ↔ l ∈ b.trackedLines document := by
      intro l
      rw [mem_trackedLines, mem_trackedLines, hlines, htracked]
    rw [syncParentStock, if_pos h]
    refine foldl_syncLine_eq (fun l hl => (mem_trackedLines.1 hl).2.2) fun l hl hm => ?_
    rw [hasMovement_sync h]
    refine .inr ⟨l, (hmem l).1 hl, ⟨hm.1, ?_⟩, rfl, rfl⟩
    by_cases hp : status = .paid
    · exact .inl hp
    · have hs := hm.2.resolve_left hp
      rw [hasMovement_sync h] at hs
      exact .inr (hs.resolve_right fun ⟨_, _, _, _, hr⟩ => syncReason_ne hp hr)
  · rw [syncParentStock_of_not h, syncParentStock_of_not h]

end StockBook

/-! ## Histories -/

/-- Before anything moved; lines have their own ids. -/
structure StockOpened (start : StockBook) : Prop where
  movements : start.movements = []
  ids : (start.lines.map (·.id)).Nodup

/-- A document reads paid, refunded, and paid again, as a full refund that fails leaves it. -/
def PaidAgain (start : StockBook) (es : List StockEvent) : Prop :=
  ∃ l ∈ start.lines, start.tracked l.itemId = true ∧ 0 < l.units ∧
    [.sync l.document .paid, .sync l.document .refunded, .sync l.document .paid].Sublist es

/-- What the movements of a line come to. -/
def LineBooked (b : StockBook) (l : StockLine) : Prop :=
  b.net l.id = (if b.hasMovement l.id .sale = true then -l.units else 0) +
    (if b.hasMovement l.id .refund = true then l.units else 0)

/-- What a history of syncs and counts keeps. -/
structure StockKept (start : StockBook) (es : List StockEvent) (b : StockBook) : Prop where
  lines : b.lines = start.lines
  tracked : ∀ item, b.tracked item = start.tracked item
  total : ∀ item, b.stock item = start.stock item + b.moved item
  booked : ∀ l ∈ start.lines, LineBooked b l
  sold : ∀ l ∈ start.lines, start.tracked l.itemId = true → 0 < l.units →
    (b.hasMovement l.id .sale = true ↔ .sync l.document .paid ∈ es)
  returned : ∀ l ∈ start.lines, start.tracked l.itemId = true → 0 < l.units →
    (b.hasMovement l.id .refund = true ↔ [.sync l.document .paid, .sync l.document .refunded].Sublist es)

section
variable {start b b' : StockBook} {es : List StockEvent}

theorem LineBooked.post {l : StockLine} {i : StockItem} {m : StockMovement} (h : LineBooked b l)
    (hm : m.lineId ≠ some l.id) : LineBooked (b.post i m) l := by
  unfold LineBooked at h ⊢
  rw [StockBook.net_post, if_neg hm, h]
  simp only [StockBook.hasMovement_post, hm, false_and, or_false, add_zero]

theorem LineBooked.syncLine {l l' : StockLine} {status : DocumentState} (h : LineBooked b l)
    (hid : l'.id = l.id → l' = l) (ht : b.tracked l'.itemId = true) : LineBooked (b.syncLine status l') l := by
  obtain ⟨-, hno, i, -, hs⟩ | ⟨hs, -⟩ := StockBook.syncLine_cases status ht
  · rw [hs]
    by_cases hl : l'.id = l.id
    · -- the line's own turn: the one movement of this reason
      obtain rfl := hid hl
      unfold LineBooked at h ⊢
      rw [StockBook.net_post, if_pos rfl, h]
      simp only [StockBook.hasMovement_post, true_and]
      by_cases hp : status = .paid
      · simp only [StockBook.syncReason, StockBook.syncQuantity, if_pos hp] at hno ⊢
        simp [hno]
        omega
      · simp only [StockBook.syncReason, StockBook.syncQuantity, if_neg hp] at hno ⊢
        simp [hno]
    · exact h.post (by simpa using hl)
  · rw [hs]
    exact h

theorem total_post {i : StockItem} {m : StockMovement} (hi : b.items m.itemId = some i)
    (h : ∀ item, b.stock item = start.stock item + b.moved item) (item : Id) :
    (b.post i m).stock item = start.stock item + (b.post i m).moved item := by
  rw [StockBook.stock_post hi, StockBook.moved_post, h item]
  omega

theorem total_syncLine {l : StockLine} {status : DocumentState} (ht : b.tracked l.itemId = true)
    (h : ∀ item, b.stock item = start.stock item + b.moved item) (item : Id) :
    (b.syncLine status l).stock item = start.stock item + (b.syncLine status l).moved item := by
  obtain ⟨-, -, i, hi, hs⟩ | ⟨hs, -⟩ := StockBook.syncLine_cases status ht
  · rw [hs]
    exact total_post hi h item
  · rw [hs]
    exact h item

/-- The pairs of a history that got one more event. -/
theorem pair_sublist_concat {α : Type} {a b e : α} {es : List α} :
    [a, b].Sublist (es ++ [e]) ↔ [a, b].Sublist es ∨ (a ∈ es ∧ b = e) := by
  constructor
  · intro h
    obtain ⟨l₁, l₂, hl, h₁, h₂⟩ := List.sublist_append_iff.1 h
    obtain rfl | ⟨x, rfl⟩ : l₂ = [] ∨ ∃ x, l₂ = [x] := by
      have := h₂.length_le
      match l₂, this with
      | [], _ => exact .inl rfl
      | [x], _ => exact .inr ⟨x, rfl⟩
    · rw [List.append_nil] at hl
      exact .inl (hl ▸ h₁)
    · obtain ⟨rfl, hb⟩ := List.append_inj' (show [a] ++ [b] = l₁ ++ [x] from hl) rfl
      cases hb
      exact .inr ⟨List.singleton_sublist.1 h₁, List.mem_singleton.1 (List.singleton_sublist.1 h₂)⟩
  · rintro (h | ⟨ha, rfl⟩)
    · exact h.trans (List.sublist_append_left es [e])
    · exact (List.singleton_sublist.2 ha).append (List.Sublist.refl [b])

theorem StockKept.restock {itemId : Id} {quantity : Int} (h : StockKept start es b)
    (hr : b.restock itemId quantity = .ok b') : StockKept start (es ++ [.restock itemId]) b' := by
  unfold StockBook.restock at hr
  split at hr
  · cases hr
  · next i hi =>
    split at hr
    · cases hr
      have hmem : ∀ document status, StockEvent.sync document status ∈ es ++ [.restock itemId] ↔
          .sync document status ∈ es := by simp
      have hsub : ∀ document, [StockEvent.sync document .paid, .sync document .refunded].Sublist (es ++ [.restock itemId]) ↔
          [StockEvent.sync document .paid, .sync document .refunded].Sublist es := by
        intro document
        rw [pair_sublist_concat]
        simp
      refine ⟨h.lines, fun item => (StockBook.tracked_post hi item).trans (h.tracked item), total_post hi h.total,
        fun l hl => (h.booked l hl).post (by simp), fun l hl ht hu => ?_, fun l hl ht hu => ?_⟩
      · rw [StockBook.hasMovement_post, hmem, ← h.sold l hl ht hu]
        simp
      · rw [StockBook.hasMovement_post, hsub, ← h.returned l hl ht hu]
        simp
    · cases hr

theorem StockKept.sync (h0 : StockOpened start) (h : StockKept start es b) (document : SaleDocument)
    (status : DocumentState) : StockKept start (es ++ [.sync document status]) (b.syncParentStock document status) := by
  obtain ⟨hlines, htracked⟩ := b.syncParentStock_rows document status
  have hn : (b.lines.map (·.id)).Nodup := h.lines ▸ h0.ids
  refine ⟨hlines.trans h.lines, fun item => (htracked item).trans (h.tracked item), ?_, fun l hl => ?_,
    fun l hl ht hu => ?_, fun l hl ht hu => ?_⟩
  · exact StockBook.syncParentStock_keeps (P := fun c => ∀ item, c.stock item = start.stock item + c.moved item)
      (fun c l _ ht hc => total_syncLine ht hc) h.total
  · refine StockBook.syncParentStock_keeps (P := fun c => LineBooked c l) (fun c l' hl' ht hc => ?_) (h.booked l hl)
    exact hc.syncLine (fun hid => StockBook.eq_of_id hn hl' (h.lines ▸ hl) hid) ht
  · rw [StockBook.hasMovement_sync_line hn (h.lines ▸ hl) (h.tracked _ ▸ ht) hu, h.sold l hl ht hu]
    simp [eq_comm]
  · rw [StockBook.hasMovement_sync_line hn (h.lines ▸ hl) (h.tracked _ ▸ ht) hu, h.returned l hl ht hu,
      h.sold l hl ht hu, pair_sublist_concat]
    simp only [StockEvent.sync.injEq]
    refine or_congr_right ⟨?_, ?_⟩
    · rintro ⟨hd, ⟨-, hr⟩ | ⟨hs, -, hsold⟩⟩
      · cases hr
      · exact ⟨hsold, hd, hs.symm⟩
    · rintro ⟨hsold, hd, hs⟩
      exact ⟨hd, .inr ⟨hs.symm, trivial, hsold⟩⟩

theorem stockKept_run (h0 : StockOpened start) (hr : Run StockMoveStep start es b) : StockKept start es b := by
  induction hr with
  | nil =>
    have hno : ∀ id reason, start.hasMovement id reason = false := by
      intro id reason
      simp [StockBook.hasMovement, h0.movements]
    refine ⟨rfl, fun _ => rfl, fun item => ?_, fun l _ => ?_, fun l _ _ _ => ?_, fun l _ _ _ => ?_⟩
    · simp [StockBook.moved, h0.movements]
    · simp [LineBooked, StockBook.net, h0.movements, hno]
    · simp [hno]
    · simp [hno]
  | snoc _ hs ih =>
    cases hs with
    | sync document status => exact ih.sync h0 document status
    | restock hr => exact ih.restock hr

/-! ## Stock follows the sale -/

/-- What a line's movements come to after a sync, and a sync that changes nothing. -/
structure SyncFollows (b : StockBook) (document : SaleDocument) (status : DocumentState) : Prop where
  paid : status = .paid → ∀ l ∈ b.lines, l.document = document → b.tracked l.itemId = true → b.net l.id = -l.units
  refunded : status = .refunded → ∀ l ∈ b.lines, l.document = document → b.tracked l.itemId = true → b.net l.id = 0
  again : b.syncParentStock document status = b

/-- Stock follows the sales through a history, after each sync and in the totals. -/
structure StockFollows (start : StockBook) (es : List StockEvent) : Prop where
  syncs : ∀ pre document status post b, es = pre ++ .sync document status :: post →
    Run StockMoveStep start (pre ++ [.sync document status]) b → SyncFollows b document status
  totals : ∀ pre post b, es = pre ++ post → Run StockMoveStep start pre b →
    ∀ item, b.stock item = start.stock item + b.moved item

theorem exists_of_triple {α : Type} {a c : α} {es' : List α} (h : [a, c, a].Sublist es') :
    ∃ pre post, es' = pre ++ a :: post ∧ [a, c].Sublist pre := by
  obtain ⟨r₁, r₂, rfl, h₁, h₂⟩ := List.append_sublist_iff.1 (show ([a, c] ++ [a]).Sublist es' from h)
  obtain ⟨p, post, rfl⟩ := List.append_of_mem (List.singleton_sublist.1 h₂)
  exact ⟨r₁ ++ p, post, (List.append_assoc ..).symm, h₁.trans (List.sublist_append_left r₁ p)⟩

theorem not_paidAgain_of_follows (h0 : StockOpened start) (hr : Run StockMoveStep start es b)
    (h : StockFollows start es) : ¬PaidAgain start es := by
  rintro ⟨l, hl, ht, hu, hsub⟩
  obtain ⟨pre, post, rfl, hpre⟩ := exists_of_triple hsub
  obtain ⟨b₁, hr₁, -⟩ := Run.split (show Run _ _ ((pre ++ [.sync l.document .paid]) ++ post) b by simpa using hr)
  have hk := stockKept_run h0 hr₁
  have hnet := (h.syncs _ _ _ _ _ rfl hr₁).paid rfl l (hk.lines ▸ hl) rfl ((hk.tracked _).trans ht)
  have hsold := (hk.sold l hl ht hu).2 (List.mem_append_right pre List.mem_cons_self)
  have hback := (hk.returned l hl ht hu).2 (hpre.trans (List.sublist_append_left pre _))
  -- out once and back once, so the second payment moved nothing
  have hbooked := hk.booked l hl
  rw [LineBooked, if_pos hsold, if_pos hback] at hbooked
  omega

theorem follows_of_not_paidAgain (h0 : StockOpened start) (h : ¬PaidAgain start es) : StockFollows start es := by
  constructor
  · rintro pre document status post b₁ rfl hr₁
    have hk := stockKept_run h0 hr₁
    constructor
    · rintro rfl l hl rfl ht
      rw [hk.lines] at hl
      rw [hk.tracked] at ht
      have hbooked := hk.booked l hl
      have hnonneg := l.units_nonneg
      by_cases hu : 0 < l.units
      · have hsold := (hk.sold l hl ht hu).2 (List.mem_append_right pre List.mem_cons_self)
        have hback : ¬b₁.hasMovement l.id .refund = true := by
          rw [hk.returned l hl ht hu, pair_sublist_concat]
          rintro (hp | ⟨-, hp⟩)
          · exact h ⟨l, hl, ht, hu, hp.append (List.singleton_sublist.2 List.mem_cons_self)⟩
          · cases hp
        rw [LineBooked, if_pos hsold, if_neg hback] at hbooked
        omega
      · rw [LineBooked] at hbooked
        split at hbooked <;> split at hbooked <;> omega
    · rintro rfl l hl rfl ht
      rw [hk.lines] at hl
      rw [hk.tracked] at ht
      have hbooked := hk.booked l hl
      have hnonneg := l.units_nonneg
      by_cases hu : 0 < l.units
      · by_cases hsold : b₁.hasMovement l.id .sale = true
        · have hpaid := (hk.sold l hl ht hu).1 hsold
          have hback : b₁.hasMovement l.id .refund = true := by
            rw [hk.returned l hl ht hu, pair_sublist_concat]
            exact .inr ⟨by simpa using hpaid, rfl⟩
          rw [LineBooked, if_pos hsold, if_pos hback] at hbooked
          omega
        · have hback : ¬b₁.hasMovement l.id .refund = true := by
            rw [hk.returned l hl ht hu]
            intro hp
            exact hsold ((hk.sold l hl ht hu).2 (hp.subset List.mem_cons_self))
          rw [LineBooked, if_neg hsold, if_neg hback] at hbooked
          exact hbooked
      · rw [LineBooked] at hbooked
        split at hbooked <;> split at hbooked <;> omega
    · obtain ⟨b₀, -, hs⟩ := hr₁.snoc_inv
      cases hs with
      | sync => exact b₀.syncParentStock_again document status
  · rintro pre post b₁ rfl hr₁
    exact (stockKept_run h0 hr₁).total

/-- Stock follows the sales of a history unless a document is paid again after a refund. -/
theorem stock_follows_sale_iff (h0 : StockOpened start) (hr : Run StockMoveStep start es b) :
    StockFollows start es ↔ ¬PaidAgain start es :=
  ⟨not_paidAgain_of_follows h0 hr, follows_of_not_paidAgain h0⟩

end

/-- Ten jars, and an order of one of them. -/
def jarShelf : StockBook where
  items := fun i => if i = "jar" then some ⟨true, some 10⟩ else none
  lines := [⟨"line", .order "order", "jar", 1, one_quantity_pos⟩]
  movements := []

theorem jarShelf_opened : StockOpened jarShelf := ⟨rfl, by decide⟩

theorem exists_syncs (b : StockBook) (document : SaleDocument) (statuses : List DocumentState) :
    ∃ b', Run StockMoveStep b (statuses.map (.sync document)) b' := by
  induction statuses generalizing b with
  | nil => exact ⟨b, .nil⟩
  | cons status statuses ih =>
    obtain ⟨b', hr⟩ := ih (b.syncParentStock document status)
    exact ⟨b', .cons (.sync document status) hr⟩

theorem jarOrder_refunded : StockFollows jarShelf [.sync (.order "order") .paid, .sync (.order "order") .refunded] := by
  obtain ⟨b, hr⟩ := exists_syncs jarShelf (.order "order") [.paid, .refunded]
  refine (stock_follows_sale_iff jarShelf_opened hr).2 ?_
  rintro ⟨l, -, -, -, h⟩
  have := h.length_le
  simp at this

/-- A full refund succeeds and fails: the jar is gone, and back in the count. -/
theorem jarOrder_paid_again : ¬∀ start es b, StockOpened start → Run StockMoveStep start es b → StockFollows start es := by
  intro h
  obtain ⟨b, hr⟩ := exists_syncs jarShelf (.order "order") [.paid, .refunded, .paid]
  refine not_paidAgain_of_follows jarShelf_opened hr (h _ _ _ jarShelf_opened hr)
    ⟨_, List.mem_cons_self, rfl, ?_, List.Sublist.refl _⟩
  show (0 : Int) < ⌊(1 : ℚ) + 1 / 2⌋
  norm_num

end ClientBridge
