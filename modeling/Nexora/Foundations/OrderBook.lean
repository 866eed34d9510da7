import Nexora.Foundations.Amounts

/-!
# Orders that are fulfilled and invoiced in parts

An order has lines, and each line counts how much of it was fulfilled and how much was invoiced.
The counters stand beside the documents that they count, and the status of the order follows
from them.

`Book` is a collection of orders with the sums over their documents.  `Step` is what one request
may do to it, and `Book.Kept` is what every step keeps: the counters are the sums, they stay
between zero and the ordered quantity, and the status says how far the order got.
-/

namespace Foundations.OrderBook

inductive Status where
  | draft
  | confirmed
  | partly
  | complete
  | cancelled
deriving DecidableEq, Repr

structure Line (K : Type*) where
  id : K
  quantity : Int
  fulfilled : Int
  invoiced : Int

structure Order (K : Type*) where
  status : Status
  lines : List (Line K)

/-- The orders, and for each order and line the sums over its documents. -/
structure Book (K : Type*) where
  orders : K → Option (Order K)
  fulfilled : K → K → Int
  invoiced : K → K → Int

variable {K : Type*}

def Line.IsComplete (line : Line K) : Prop := line.fulfilled = line.quantity

instance (line : Line K) : Decidable line.IsComplete :=
  inferInstanceAs (Decidable (line.fulfilled = line.quantity))

def Line.fulfil (line : Line K) (amount : Int) : Line K :=
  { line with fulfilled := line.fulfilled + amount }

def Line.invoice (line : Line K) (amount : Int) : Line K :=
  { line with invoiced := line.invoiced + amount }

@[simp] theorem Line.fulfil_id (line : Line K) (amount : Int) : (line.fulfil amount).id = line.id := rfl

@[simp] theorem Line.invoice_id (line : Line K) (amount : Int) :
    (line.invoice amount).id = line.id := rfl

@[simp] theorem Line.invoice_quantity (line : Line K) (amount : Int) :
    (line.invoice amount).quantity = line.quantity := rfl

@[simp] theorem Line.invoice_fulfilled (line : Line K) (amount : Int) :
    (line.invoice amount).fulfilled = line.fulfilled := rfl

/-- The lines with more fulfilled. -/
def Order.fulfilLines (order : Order K) (amount : K → Int) : List (Line K) :=
  order.lines.map fun line => line.fulfil (amount line.id)

/-- The order after a fulfilment. -/
def Order.fulfil (order : Order K) (amount : K → Int) : Order K where
  status := if ∀ line ∈ order.fulfilLines amount, line.IsComplete then .complete else .partly
  lines := order.fulfilLines amount

/-- The order after an invoice. -/
def Order.invoice (order : Order K) (amount : K → Int) : Order K where
  status := order.status
  lines := order.lines.map fun line => line.invoice (amount line.id)

/-- A new order. -/
structure Order.IsNew (order : Order K) : Prop where
  status : order.status = .draft
  lines_ne : order.lines ≠ []
  unique : (order.lines.map Line.id).Nodup
  lines : ∀ line ∈ order.lines, 0 < line.quantity ∧ line.fulfilled = 0 ∧ line.invoiced = 0

/-! ## Loops over the lines -/

section Loops

variable {L S ε : Type*} {pass : S → L → Except ε S} {linesOf : S → List (Line K)}
  {partsOf : S → List (K × Int)} (view : L → Line K) (take : L → Option Int)
  (grow : Line K → Int → Line K)

/-- What a loop does that writes each line back and adds a part for some. -/
theorem foldlM_parts {Ok : L → Prop} {lines : List L} {s s' : S}
    (h : lines.foldlM pass s = .ok s')
    (hpass : ∀ s line s', pass s line = .ok s' →
      linesOf s' = linesOf s ++ [grow (view line) ((take line).getD 0)] ∧
      partsOf s' = partsOf s ++ ((take line).map ((view line).id, ·)).toList ∧ Ok line) :
    linesOf s' = linesOf s ++ lines.map (fun line => grow (view line) ((take line).getD 0)) ∧
      partsOf s' =
        partsOf s ++ lines.filterMap (fun line => (take line).map ((view line).id, ·)) ∧
      ∀ line ∈ lines, Ok line := by
  induction lines generalizing s with
  | nil =>
      cases h
      exact ⟨(List.append_nil _).symm, (List.append_nil _).symm, nofun⟩
  | cons line lines ih =>
      rw [List.foldlM_cons] at h
      cases hs₁ : pass s line with
      | error e =>
          rw [hs₁] at h
          cases h
      | ok s₁ =>
          rw [hs₁] at h
          obtain ⟨hlines₁, hparts₁, hok⟩ := hpass s line s₁ hs₁
          obtain ⟨hlines, hparts, hall⟩ := ih h
          refine ⟨?_, ?_, List.forall_mem_cons.mpr ⟨hok, hall⟩⟩
          · rw [hlines, hlines₁, List.map_cons, List.append_assoc]
            rfl
          · rw [hparts, hparts₁, List.append_assoc]
            cases htake : take line with
            | none => rw [List.filterMap_cons_none (by rw [htake]; rfl)]; rfl
            | some amount => rw [List.filterMap_cons_some (by rw [htake]; rfl)]; rfl

/-- Over lines with different keys, such a loop grows each line by what its parts say of it. -/
theorem foldlM_grows [DecidableEq K] {Ok : L → Prop} {lines : List L} {s s' : S}
    (hnodup : (lines.map fun line => (view line).id).Nodup) (h : lines.foldlM pass s = .ok s')
    (hlines : linesOf s = []) (hparts : partsOf s = [])
    (hpass : ∀ s line s', pass s line = .ok s' →
      linesOf s' = linesOf s ++ [grow (view line) ((take line).getD 0)] ∧
      partsOf s' = partsOf s ++ ((take line).map ((view line).id, ·)).toList ∧ Ok line) :
    linesOf s' = (lines.map view).map (fun line => grow line (amountFor (partsOf s') line.id)) ∧
      ∀ line ∈ lines, amountFor (partsOf s') (view line).id = (take line).getD 0 ∧ Ok line := by
  obtain ⟨hlines', hparts', hok⟩ := foldlM_parts view take grow h hpass
  rw [hlines, List.nil_append] at hlines'
  rw [hparts, List.nil_append] at hparts'
  have hamount : ∀ line ∈ lines, amountFor (partsOf s') (view line).id = (take line).getD 0 := by
    intro line hline
    rw [hparts']
    exact amountFor_filterMap hnodup hline
  refine ⟨?_, fun line hline => ⟨hamount line hline, hok line hline⟩⟩
  rw [hlines', List.map_map]
  refine List.map_congr_left fun line hline => ?_
  rw [Function.comp_apply, hamount line hline]

end Loops

/-! ## The invariant -/

/-- A line between nothing and everything, with the sums over its documents. -/
structure Line.Kept (b : Book K) (id : K) (line : Line K) : Prop where
  quantity_pos : 0 < line.quantity
  fulfilled_range : 0 ≤ line.fulfilled ∧ line.fulfilled ≤ line.quantity
  invoiced_range : 0 ≤ line.invoiced ∧ line.invoiced ≤ line.quantity
  fulfilled : line.fulfilled = b.fulfilled id line.id
  invoiced : line.invoiced = b.invoiced id line.id

/-- The status says how far the lines got. -/
structure Order.Staged (order : Order K) : Prop where
  complete : order.status = .complete ↔ ∀ line ∈ order.lines, line.IsComplete
  partly : order.status = .partly ↔
    (∃ line ∈ order.lines, 0 < line.fulfilled) ∧ ¬∀ line ∈ order.lines, line.IsComplete

structure Order.Kept (b : Book K) (id : K) (order : Order K) : Prop where
  lines_ne : order.lines ≠ []
  unique : (order.lines.map Line.id).Nodup
  lines : ∀ line ∈ order.lines, line.Kept b id
  staged : order.Staged

/-- Documents are those of orders that are there. -/
structure Book.Kept (b : Book K) : Prop where
  orders : ∀ id order, b.orders id = some order → order.Kept b id
  unknown : ∀ id, b.orders id = none → ∀ line, b.fulfilled id line = 0 ∧ b.invoiced id line = 0

variable {b b' : Book K} {id : K} {order : Order K}

/-- An order that is neither complete nor partly so has nothing fulfilled. -/
theorem Order.Kept.unfulfilled (h : order.Kept b id) (hcomplete : order.status ≠ .complete)
    (hpartly : order.status ≠ .partly) : ∀ line ∈ order.lines, line.fulfilled = 0 := by
  intro line hline
  have hnot : ¬∀ line ∈ order.lines, line.IsComplete := fun hall =>
    hcomplete (h.staged.complete.mpr hall)
  by_contra hne
  have hpos : 0 < line.fulfilled :=
    lt_of_le_of_ne (h.lines line hline).fulfilled_range.1 (Ne.symm hne)
  exact hpartly (h.staged.partly.mpr ⟨⟨line, hline, hpos⟩, hnot⟩)

/-- Nothing fulfilled and a status of before: the status says so. -/
theorem Order.Staged.of_unfulfilled (hne : order.lines ≠ [])
    (hlines : ∀ line ∈ order.lines, 0 < line.quantity ∧ line.fulfilled = 0)
    (hcomplete : order.status ≠ .complete) (hpartly : order.status ≠ .partly) : order.Staged := by
  obtain ⟨line, hline⟩ := List.exists_mem_of_ne_nil _ hne
  have hnot : ¬∀ line ∈ order.lines, line.IsComplete := by
    intro hall
    obtain ⟨hpos, hzero⟩ := hlines line hline
    have hcomplete := hall line hline
    rw [Line.IsComplete, hzero] at hcomplete
    omega
  constructor
  · exact ⟨fun h => absurd h hcomplete, fun h => absurd h hnot⟩
  · refine ⟨fun h => absurd h hpartly, fun ⟨⟨l, hl, hpos⟩, _⟩ => ?_⟩
    rw [(hlines l hl).2] at hpos
    omega

/-- A line whose documents did not change is kept. -/
theorem Line.Kept.mono {line : Line K} (h : line.Kept b id)
    (hfulfilled : b'.fulfilled id line.id = b.fulfilled id line.id)
    (hinvoiced : b'.invoiced id line.id = b.invoiced id line.id) : line.Kept b' id where
  quantity_pos := h.quantity_pos
  fulfilled_range := h.fulfilled_range
  invoiced_range := h.invoiced_range
  fulfilled := by rw [hfulfilled, h.fulfilled]
  invoiced := by rw [hinvoiced, h.invoiced]

theorem Order.Kept.mono (h : order.Kept b id)
    (hfulfilled : ∀ line, b'.fulfilled id line = b.fulfilled id line)
    (hinvoiced : ∀ line, b'.invoiced id line = b.invoiced id line) : order.Kept b' id where
  lines_ne := h.lines_ne
  unique := h.unique
  lines line hline := (h.lines line hline).mono (hfulfilled _) (hinvoiced _)
  staged := h.staged

/-! ## Steps -/

section Steps

variable [DecidableEq K]

/-- One order changed. -/
def Book.Sets (b b' : Book K) (id : K) (order : Order K) : Prop :=
  ∀ k, b'.orders k = if k = id then some order else b.orders k

/-- The documents of one order grew. -/
def Grows (sums sums' : K → K → Int) (id : K) (amount : K → Int) : Prop :=
  ∀ k line, sums' k line = sums k line + if k = id then amount line else 0

/-- What a request may do. -/
inductive Step (b : Book K) : Book K → Prop
  | stay {b' : Book K} : (∀ k, b'.orders k = b.orders k) →
      (∀ k line, b'.fulfilled k line = b.fulfilled k line) →
      (∀ k line, b'.invoiced k line = b.invoiced k line) → Step b b'
  | create {b' : Book K} {id : K} {order : Order K} : b.orders id = none → order.IsNew →
      b.Sets b' id order → (∀ k line, b'.fulfilled k line = b.fulfilled k line) →
      (∀ k line, b'.invoiced k line = b.invoiced k line) → Step b b'
  | confirm {b' : Book K} {id : K} {order : Order K} : b.orders id = some order →
      order.status = .draft → b.Sets b' id { order with status := .confirmed } →
      (∀ k line, b'.fulfilled k line = b.fulfilled k line) →
      (∀ k line, b'.invoiced k line = b.invoiced k line) → Step b b'
  | cancel {b' : Book K} {id : K} {order : Order K} : b.orders id = some order →
      order.status ≠ .cancelled → (∀ line ∈ order.lines, ¬0 < line.fulfilled) →
      b.Sets b' id { order with status := .cancelled } →
      (∀ k line, b'.fulfilled k line = b.fulfilled k line) →
      (∀ k line, b'.invoiced k line = b.invoiced k line) → Step b b'
  | fulfil {b' : Book K} {id : K} {order : Order K} {amount : K → Int} :
      b.orders id = some order → order.status ≠ .cancelled →
      (∀ line ∈ order.lines, 0 ≤ amount line.id ∧ line.fulfilled + amount line.id ≤ line.quantity) →
      (∃ line ∈ order.lines, 0 < amount line.id) → b.Sets b' id (order.fulfil amount) →
      Grows b.fulfilled b'.fulfilled id amount →
      (∀ k line, b'.invoiced k line = b.invoiced k line) → Step b b'
  | invoice {b' : Book K} {id : K} {order : Order K} {amount : K → Int} :
      b.orders id = some order → order.status ≠ .cancelled →
      (∀ line ∈ order.lines, 0 ≤ amount line.id ∧ line.invoiced + amount line.id ≤ line.quantity) →
      b.Sets b' id (order.invoice amount) →
      (∀ k line, b'.fulfilled k line = b.fulfilled k line) →
      Grows b.invoiced b'.invoiced id amount → Step b b'

/-- One order is written, and only its own documents are. -/
theorem Book.Kept.sets (h : b.Kept) (hset : b.Sets b' id order) (horder : order.Kept b' id)
    (hfulfilled : ∀ k, k ≠ id → ∀ line, b'.fulfilled k line = b.fulfilled k line)
    (hinvoiced : ∀ k, k ≠ id → ∀ line, b'.invoiced k line = b.invoiced k line) : b'.Kept where
  orders k o ho := by
    rw [hset k] at ho
    split_ifs at ho with hk
    · cases ho
      rw [hk]
      exact horder
    · exact (h.orders k o ho).mono (hfulfilled k hk) (hinvoiced k hk)
  unknown k hnone line := by
    rw [hset k] at hnone
    split_ifs at hnone with hk
    rw [hfulfilled k hk, hinvoiced k hk]
    exact h.unknown k hnone line

theorem Grows.others {sums sums' : K → K → Int} {amount : K → Int} (h : Grows sums sums' id amount)
    {k : K} (hk : k ≠ id) (line : K) : sums' k line = sums k line := by
  rw [h k line, if_neg hk, add_zero]

theorem Grows.own {sums sums' : K → K → Int} {amount : K → Int} (h : Grows sums sums' id amount)
    (line : K) : sums' id line = sums id line + amount line := by
  rw [h id line, if_pos rfl]

/-- An order with more fulfilled. -/
theorem Order.Kept.fulfil {amount : K → Int} (h : order.Kept b id)
    (hrange : ∀ line ∈ order.lines,
      0 ≤ amount line.id ∧ line.fulfilled + amount line.id ≤ line.quantity)
    (hsome : ∃ line ∈ order.lines, 0 < amount line.id)
    (hfulfilled : Grows b.fulfilled b'.fulfilled id amount)
    (hinvoiced : ∀ k line, b'.invoiced k line = b.invoiced k line) :
    (order.fulfil amount).Kept b' id where
  lines_ne := by
    intro hnil
    exact h.lines_ne (List.map_eq_nil_iff.mp hnil)
  unique := by
    have hunique := h.unique
    simpa [Order.fulfil, Order.fulfilLines, Function.comp_def] using hunique
  lines line hline := by
    obtain ⟨old, hold, rfl⟩ := List.mem_map.mp hline
    obtain ⟨hnonneg, hle⟩ := hrange old hold
    have hkept := h.lines old hold
    refine ⟨hkept.quantity_pos, ⟨add_nonneg hkept.fulfilled_range.1 hnonneg, hle⟩,
      hkept.invoiced_range, ?_, ?_⟩
    · show old.fulfilled + amount old.id = b'.fulfilled id old.id
      rw [hfulfilled.own, hkept.fulfilled]
    · show old.invoiced = b'.invoiced id old.id
      rw [hinvoiced, hkept.invoiced]
  staged := by
    obtain ⟨line, hline, hpos⟩ := hsome
    have hshipped : ∃ line ∈ order.fulfilLines amount, 0 < line.fulfilled :=
      ⟨_, List.mem_map_of_mem hline, add_pos_of_nonneg_of_pos (h.lines line hline).fulfilled_range.1 hpos⟩
    constructor
    · simp only [Order.fulfil]
      split_ifs with hall
      · exact ⟨fun _ => hall, fun _ => rfl⟩
      · exact ⟨nofun, fun h => absurd h hall⟩
    · simp only [Order.fulfil]
      split_ifs with hall
      · exact ⟨nofun, fun h => absurd hall h.2⟩
      · exact ⟨fun _ => ⟨hshipped, hall⟩, fun _ => rfl⟩

/-- An order with more invoiced. -/
theorem Order.Kept.invoice {amount : K → Int} (h : order.Kept b id)
    (hrange : ∀ line ∈ order.lines,
      0 ≤ amount line.id ∧ line.invoiced + amount line.id ≤ line.quantity)
    (hfulfilled : ∀ k line, b'.fulfilled k line = b.fulfilled k line)
    (hinvoiced : Grows b.invoiced b'.invoiced id amount) :
    (order.invoice amount).Kept b' id where
  lines_ne := by
    intro hnil
    exact h.lines_ne (List.map_eq_nil_iff.mp hnil)
  unique := by
    have hunique := h.unique
    simpa [Order.invoice, Function.comp_def] using hunique
  lines line hline := by
    obtain ⟨old, hold, rfl⟩ := List.mem_map.mp hline
    obtain ⟨hnonneg, hle⟩ := hrange old hold
    have hkept := h.lines old hold
    refine ⟨hkept.quantity_pos, hkept.fulfilled_range,
      ⟨add_nonneg hkept.invoiced_range.1 hnonneg, hle⟩, ?_, ?_⟩
    · show old.fulfilled = b'.fulfilled id old.id
      rw [hfulfilled, hkept.fulfilled]
    · show old.invoiced + amount old.id = b'.invoiced id old.id
      rw [hinvoiced.own, hkept.invoiced]
  staged := by
    have hstaged := h.staged
    constructor
    · simpa [Order.invoice, Line.IsComplete] using hstaged.complete
    · simpa [Order.invoice, Line.IsComplete] using hstaged.partly

/-- Every step keeps the invariant. -/
theorem Book.Kept.step (h : b.Kept) (hstep : Step b b') : b'.Kept := by
  cases hstep with
  | stay horders hfulfilled hinvoiced =>
      refine ⟨fun k o ho => ?_, fun k hnone line => ?_⟩
      · rw [horders] at ho
        exact (h.orders k o ho).mono (hfulfilled k) (hinvoiced k)
      · rw [horders] at hnone
        rw [hfulfilled, hinvoiced]
        exact h.unknown k hnone line
  | @create id order hnone hnew hset hfulfilled hinvoiced =>
      refine h.sets hset ⟨hnew.lines_ne, hnew.unique, fun line hline => ?_, ?_⟩ (fun k _ => hfulfilled k)
        fun k _ => hinvoiced k
      · obtain ⟨hpos, hzero, hzero'⟩ := hnew.lines line hline
        obtain ⟨hf, hi⟩ := h.unknown id hnone line.id
        refine ⟨hpos, ⟨hzero.ge, hzero ▸ hpos.le⟩, ⟨hzero'.ge, hzero' ▸ hpos.le⟩, ?_, ?_⟩
        · rw [hfulfilled, hf, hzero]
        · rw [hinvoiced, hi, hzero']
      · refine .of_unfulfilled hnew.lines_ne (fun line hline => ?_) ?_ ?_
        · exact ⟨(hnew.lines line hline).1, (hnew.lines line hline).2.1⟩
        · rw [hnew.status]
          nofun
        · rw [hnew.status]
          nofun
  | @confirm id order hget hdraft hset hfulfilled hinvoiced =>
      have hkept := h.orders id order hget
      have hzero := hkept.unfulfilled (by rw [hdraft]; nofun) (by rw [hdraft]; nofun)
      have hmono := hkept.mono (hfulfilled id) (hinvoiced id)
      refine h.sets hset ⟨hkept.lines_ne, hkept.unique, hmono.lines, ?_⟩ (fun k _ => hfulfilled k)
        fun k _ => hinvoiced k
      exact .of_unfulfilled hkept.lines_ne
        (fun line hline => ⟨(hkept.lines line hline).quantity_pos, hzero line hline⟩) nofun nofun
  | @cancel id order hget _ hzero hset hfulfilled hinvoiced =>
      have hkept := h.orders id order hget
      have hmono := hkept.mono (hfulfilled id) (hinvoiced id)
      refine h.sets hset ⟨hkept.lines_ne, hkept.unique, hmono.lines, ?_⟩ (fun k _ => hfulfilled k)
        fun k _ => hinvoiced k
      refine .of_unfulfilled hkept.lines_ne (fun line hline => ?_) nofun nofun
      have hline' := hkept.lines line hline
      exact ⟨hline'.quantity_pos,
        le_antisymm (not_lt.mp (hzero line hline)) hline'.fulfilled_range.1⟩
  | fulfil hget _ hrange hsome hset hfulfilled hinvoiced =>
      exact h.sets hset ((h.orders _ _ hget).fulfil hrange hsome hfulfilled hinvoiced)
        (fun k hk line => hfulfilled.others hk line) fun k _ => hinvoiced k
  | invoice hget _ hrange hset hfulfilled hinvoiced =>
      exact h.sets hset ((h.orders _ _ hget).invoice hrange hfulfilled hinvoiced)
        (fun k _ => hfulfilled k) fun k hk line => hinvoiced.others hk line

end Steps

end Foundations.OrderBook
