import Nexora.Inventory.Tables
import Nexora.Core.Pagination
import Nexora.Foundations.Keyset
import Nexora.Foundations.Timestamps
import Mathlib.Data.Prod.Lex

/-!
# Pages of movements

`list_movements` hands out the movements of a tenant in pages, the latest first.  It asks for one
row more than a page has, and when there is one the page comes with a cursor that names the last row
on it; the next page starts behind that row.

A client who follows the cursors gets every movement that the filter admits once and in order
(`movement_pages`).
-/

namespace Nexora.Inventory

open Nexora Foundations

/-! ## Movements -/

/-- A row of `inventory_movements`.  The time is in microseconds since the first of January 1970. -/
structure MovementRow where
  id : Uuid
  occurredAt : ℤ
  movement : Movement
deriving DecidableEq

/-- What a request asks for. -/
structure MovementFilter where
  productId : Option Uuid
  warehouseId : Option Uuid
  fromTime : Option ℤ
  toTime : Option ℤ

def MovementFilter.admits (filter : MovementFilter) (row : MovementRow) : Bool :=
  filter.productId.all (row.movement.productId = ·) &&
    filter.warehouseId.all (row.movement.warehouseId = ·) &&
    filter.fromTime.all (· ≤ row.occurredAt) && filter.toTime.all (row.occurredAt ≤ ·)

/-- The condition that a cursor adds to the query. -/
def isBehind (cursor : Option (ℤ × Uuid)) (row : MovementRow) : Bool :=
  match cursor with
  | none => true
  | some (occurredAt, movementId) =>
      row.occurredAt < occurredAt || (row.occurredAt = occurredAt && row.id < movementId)

/-- `occurred_at DESC, id DESC`. -/
def MovementRow.key (row : MovementRow) : (ℤ ×ₗ ℕ)ᵒᵈ := .toDual (toLex (row.occurredAt, row.id))

/-- `InventoryRepository.list_movements`. -/
def queryMovements (rows : List MovementRow) (limit : ℕ) (cursor : Option (ℤ × Uuid))
    (filter : MovementFilter) : List MovementRow :=
  (orderBy MovementRow.key
    (rows.filter fun row => isBehind cursor row && filter.admits row)).take (limit + 1)

/-! ## Texts -/

/-- `datetime.isoformat` of a time in UTC. -/
def isoformat (micros : ℤ) : Str :=
  let (year, month, day) := civilDate (micros / 86400000000)
  let time := (micros % 86400000000).toNat
  (padded 4 year ++ '-' :: padded 2 month ++ '-' :: padded 2 day ++ 'T' ::
    padded 2 (time / 3600000000) ++ ':' :: padded 2 (time / 60000000 % 60) ++ ':' ::
    padded 2 (time / 1000000 % 60) ++
    (if time % 1000000 = 0 then [] else '.' :: padded 6 (time % 1000000)) ++
    "+00:00".toList).map ord

/-- `str` of a UUID. -/
def uuidText (id : Uuid) : Str :=
  let hex := (Nat.toDigits 16 id).leftpad 32 '0'
  (['-'].intercalate [hex.take 8, (hex.drop 8).take 4, (hex.drop 12).take 4,
    (hex.drop 16).take 4, hex.drop 20]).map ord

/-- `datetime.fromisoformat` and `UUID`, without a value where they raise. -/
structure Readers where
  fromisoformat : Str → Option ℤ
  uuid : Str → Option Uuid

/-- The time and the identifier of a movement are read back from their texts. -/
structure Readers.Read (readers : Readers) (row : MovementRow) : Prop where
  occurredAt : readers.fromisoformat (isoformat row.occurredAt) = some row.occurredAt
  id : readers.uuid (uuidText row.id) = some row.id

/-! ## Requests -/

/-- `CursorPage[MovementResponse]`. -/
structure CursorPage where
  items : List MovementRow
  nextCursor : Option Str
  hasMore : Bool

/-- The place a cursor names; the empty cursor is none. -/
def Readers.movementCursor (readers : Readers) (cursor : Option Str) :
    Except Err (Option (ℤ × Uuid)) :=
  match cursor with
  | none => .ok none
  | some [] => .ok none
  | some (c :: text) =>
      orRaise (.domainValidation "VALIDATION_ERROR" "Invalid movement cursor.") do
        let (timestamp, movementId) ← decodeCursor (c :: text)
        let occurredAt ← readers.fromisoformat timestamp
        let id ← readers.uuid movementId
        return some (occurredAt, id)

/-- The cursor behind a row. -/
def MovementRow.cursor (row : MovementRow) : Except Err Str :=
  orRaise (.runtime "UnicodeEncodeError")
    (encodeCursor (isoformat row.occurredAt) (uuidText row.id))

/-- `InventoryService.list_movements`. -/
def listMovements (readers : Readers) (movements : Table MovementRow.id) (limit : ℕ)
    (filter : MovementFilter) (cursor : Option Str) : Except Err CursorPage := do
  let decoded ← readers.movementCursor cursor
  let rows := queryMovements movements.rows limit decoded filter
  let pageRows := rows.take limit
  let nextCursor ←
    match pageRows.getLast? with
    | none => .ok none
    | some last => if limit < rows.length then some <$> last.cursor else .ok none
  return { items := pageRows, nextCursor := nextCursor, hasMore := limit < rows.length }

/-! ## Following the cursors -/

variable {readers : Readers} {movements : Table MovementRow.id} {limit : ℕ}
  {filter : MovementFilter}

/-- The movements that a request asks for, the latest first. -/
def matching (movements : Table MovementRow.id) (filter : MovementFilter) : List MovementRow :=
  orderBy MovementRow.key (movements.rows.filter filter.admits)

theorem keys_nodup (movements : Table MovementRow.id) :
    (movements.rows.map MovementRow.key).Nodup := by
  refine List.Nodup.of_map (fun key => (ofLex (OrderDual.ofDual key)).2) ?_
  rw [List.map_map]
  exact movements.nodup

theorem matching_strict (movements : Table MovementRow.id) (filter : MovementFilter) :
    (matching movements filter).Pairwise fun a b => a.key < b.key :=
  orderBy_strict ((keys_nodup movements).sublist (List.filter_sublist.map _))

/-- A later movement, or one of the same time with a greater identifier, stands in front. -/
theorem MovementRow.key_lt_iff {row row' : MovementRow} : row.key < row'.key ↔
    row'.occurredAt < row.occurredAt ∨ row'.occurredAt = row.occurredAt ∧ row'.id < row.id :=
  Prod.Lex.toLex_lt_toLex

theorem isBehind_eq (row row' : MovementRow) :
    isBehind (some (row.occurredAt, row.id)) row' = decide (row.key < row'.key) := by
  rw [Bool.eq_iff_iff, decide_eq_true_eq, MovementRow.key_lt_iff]
  simp [isBehind]

/-- The query behind a row finds what stands behind it in the list. -/
theorem queryMovements_behind {front rest : List MovementRow} {last : MovementRow}
    (h : matching movements filter = front ++ last :: rest) :
    queryMovements movements.rows limit (some (last.occurredAt, last.id)) filter
      = rest.take (limit + 1) := by
  have hstrict := matching_strict movements filter
  have hkeys : ((movements.rows.filter filter.admits).map MovementRow.key).Nodup :=
    (keys_nodup movements).sublist (List.filter_sublist.map _)
  rw [h] at hstrict
  have hrows : (movements.rows.filter fun row =>
      isBehind (some (last.occurredAt, last.id)) row && filter.admits row)
      = (movements.rows.filter filter.admits).filter fun row => last.key < row.key := by
    rw [List.filter_filter]
    refine List.filter_congr fun row _ => ?_
    rw [isBehind_eq]
  rw [queryMovements, hrows, orderBy_filter hkeys, ← matching, h, filter_of_strict hstrict]

theorem queryMovements_first :
    queryMovements movements.rows limit none filter
      = (matching movements filter).take (limit + 1) := by
  simp only [queryMovements, isBehind, Bool.true_and]
  rfl

/-- The cursor of a row is read back. -/
theorem Readers.Read.movementCursor {row : MovementRow} (h : readers.Read row) :
    ∃ text, row.cursor = .ok text ∧
      readers.movementCursor (some text) = .ok (some (row.occurredAt, row.id)) := by
  obtain ⟨text, htext⟩ := encodeCursor_isSome (isoformat row.occurredAt) (uuidText row.id)
  have hdecode := (decodeCursor_encodeCursor_iff (isoformat row.occurredAt) (uuidText row.id)).mpr
    ⟨surrogatesApart_map_ord _, surrogatesApart_map_ord _⟩
  rw [htext, Option.bind_some] at hdecode
  refine ⟨text, by rw [MovementRow.cursor, htext]; rfl, ?_⟩
  cases text with
  | nil => exact absurd rfl (encodeCursor_ne_nil htext)
  | cons c text =>
      rw [Readers.movementCursor, hdecode]
      simp only [Option.bind_eq_bind, Option.bind_some, h.occurredAt, h.id]
      rfl

/-- A page has the first rows of what its query finds, and a cursor when there are more. -/
theorem listMovements_page (hlimit : 1 ≤ limit) {cursor : Option Str} {decoded : Option (ℤ × Uuid)}
    {rest : List MovementRow} (hread : ∀ row ∈ rest, readers.Read row)
    (hcursor : readers.movementCursor cursor = .ok decoded)
    (hrows : queryMovements movements.rows limit decoded filter = rest.take (limit + 1)) :
    ∃ page, listMovements readers movements limit filter cursor = .ok page ∧
      page.items = rest.take limit ∧
        (rest.length ≤ limit ∧ page.nextCursor = none ∨
          limit < rest.length ∧ ∃ last text, (rest.take limit).getLast? = some last ∧
            last.cursor = .ok text ∧ page.nextCursor = some text) := by
  have hitems : (rest.take (limit + 1)).take limit = rest.take limit := by
    rw [List.take_take, Nat.min_eq_left (Nat.le_succ limit)]
  have hmore : limit < (rest.take (limit + 1)).length ↔ limit < rest.length := by
    rw [List.length_take]
    omega
  simp only [listMovements, hcursor, hrows, hitems, bind, Except.bind]
  cases hlast : (rest.take limit).getLast? with
  | none =>
      have hnil : rest.take limit = [] := List.getLast?_eq_none_iff.mp hlast
      have hlength := congrArg List.length hnil
      rw [List.length_take, List.length_nil] at hlength
      exact ⟨_, rfl, rfl, .inl ⟨by omega, rfl⟩⟩
  | some last =>
      by_cases hlong : limit < rest.length
      · have hmem : last ∈ rest := List.mem_of_mem_take (List.mem_of_getLast? hlast)
        obtain ⟨text, htext, -⟩ := (hread last hmem).movementCursor
        simp only [if_pos (hmore.mpr hlong), htext]
        exact ⟨_, rfl, rfl, .inr ⟨hlong, last, text, rfl, htext, rfl⟩⟩
      · simp only [if_neg (mt hmore.mp hlong)]
        exact ⟨_, rfl, rfl, .inl ⟨not_lt.mp hlong, rfl⟩⟩

/-- A request's cursor stands for the rest of the list. -/
def IsAt (movements : Table MovementRow.id) (filter : MovementFilter) :
    Option Str → List MovementRow → Prop
  | none, rest => rest = matching movements filter
  | some text, rest => ∃ front last,
      matching movements filter = front ++ last :: rest ∧ last.cursor = .ok text

theorem IsAt.subset {cursor : Option Str} {rest : List MovementRow}
    (h : IsAt movements filter cursor rest) : rest ⊆ movements.rows := by
  have hmatching : matching movements filter ⊆ movements.rows := by
    intro row hrow
    exact List.mem_of_mem_filter ((orderBy_perm _ _).subset hrow)
  cases cursor with
  | none => exact h ▸ hmatching
  | some text =>
      obtain ⟨front, last, hrows, -⟩ := h
      intro row hrow
      exact hmatching (hrows ▸ List.mem_append_right _ (List.mem_cons_of_mem _ hrow))

/-- The query of a cursor finds the rest of the list. -/
theorem IsAt.query (hread : ∀ row ∈ movements.rows, readers.Read row) {cursor : Option Str}
    {rest : List MovementRow} (h : IsAt movements filter cursor rest) :
    ∃ decoded, readers.movementCursor cursor = .ok decoded ∧
      queryMovements movements.rows limit decoded filter = rest.take (limit + 1) := by
  cases cursor with
  | none => exact ⟨none, rfl, h ▸ queryMovements_first⟩
  | some text =>
      obtain ⟨front, last, hrows, htext⟩ := h
      have hlast : last ∈ movements.rows := by
        have hmem : last ∈ matching movements filter := by simp [hrows]
        exact List.mem_of_mem_filter ((orderBy_perm _ _).subset hmem)
      obtain ⟨text', htext', hcursor⟩ := (hread last hlast).movementCursor
      rw [htext] at htext'
      cases htext'
      exact ⟨_, hcursor, queryMovements_behind hrows⟩

/-- The cursor of a page stands for what is left. -/
theorem IsAt.drop {cursor : Option Str} {rest : List MovementRow} {last : MovementRow} {text : Str}
    (h : IsAt movements filter cursor rest) (hlast : (rest.take limit).getLast? = some last)
    (htext : last.cursor = .ok text) : IsAt movements filter (some text) (rest.drop limit) := by
  obtain ⟨init, hinit⟩ := List.getLast?_eq_some_iff.mp hlast
  have hrest : rest = init ++ last :: rest.drop limit := by
    conv_lhs => rw [← List.take_append_drop limit rest, hinit]
    simp
  cases cursor with
  | none => exact ⟨init, last, h.symm.trans hrest, htext⟩
  | some _ =>
      obtain ⟨front, before, hrows, -⟩ := h
      refine ⟨front ++ before :: init, last, ?_, htext⟩
      rw [hrows]
      conv_lhs => rw [hrest]
      simp

/-- Whatever movements there are and whatever is asked for, a client who follows the cursors comes
to an end and has every movement that the filter admits once, the latest first and those of one time
in the order of their identifiers.  The strings of a cursor are given back exactly when no high
surrogate stands directly in front of a low one. -/
theorem movement_pages (hlimit : 1 ≤ limit) (hread : ∀ row ∈ movements.rows, readers.Read row) :
    (∃ pages, Follows (listMovements readers movements limit filter) CursorPage.nextCursor none
        pages ∧
      (∀ pages', Follows (listMovements readers movements limit filter) CursorPage.nextCursor none
        pages' → pages' = pages) ∧
      (pages.flatMap CursorPage.items).Perm (movements.rows.filter filter.admits) ∧
      (pages.flatMap CursorPage.items).Pairwise fun row row' =>
        row'.occurredAt < row.occurredAt ∨
          row'.occurredAt = row.occurredAt ∧ row'.id < row.id) ∧
      ∀ sortKey resourceId : Str,
        (encodeCursor sortKey resourceId).bind decodeCursor = some (sortKey, resourceId) ↔
          SurrogatesApart sortKey ∧ SurrogatesApart resourceId := by
  refine ⟨?_, decodeCursor_encodeCursor_iff⟩
  have hpage : ∀ cursor rest, IsAt movements filter cursor rest →
      ∃ page, listMovements readers movements limit filter cursor = .ok page ∧
        page.items = rest.take limit ∧
          (rest.length ≤ limit ∧ page.nextCursor = none ∨
            limit < rest.length ∧ ∃ text, page.nextCursor = some text ∧
              IsAt movements filter (some text) (rest.drop limit)) := by
    intro cursor rest hat
    obtain ⟨decoded, hcursor, hrows⟩ := @IsAt.query _ _ limit _ hread _ _ hat
    obtain ⟨page, hrun, hitems, hnext⟩ :=
      listMovements_page hlimit (fun row hrow => hread row (hat.subset hrow)) hcursor hrows
    refine ⟨page, hrun, hitems, hnext.imp_right ?_⟩
    rintro ⟨hlong, last, text, hlast, htext, hcursor⟩
    exact ⟨hlong, text, hcursor, hat.drop hlast htext⟩
  obtain ⟨pages, hpages, hrows⟩ := Follows.exists_of_pages hlimit hpage
    (show IsAt movements filter none (matching movements filter) from rfl)
  refine ⟨pages, hpages, fun pages' hpages' => hpages'.unique hpages, ?_, ?_⟩
  · rw [hrows]
    exact orderBy_perm _ _
  · rw [hrows]
    exact (matching_strict movements filter).imp fun h => MovementRow.key_lt_iff.mp h

/-- A sale of two pieces. -/
def saleOfTwo : Movement where
  warehouseId := 1
  productId := 1
  movementType := .sale
  quantity := -2
  unitCost := none
  balanceAfter := 8
  referenceType := none
  referenceId := none
  notes := none
  idempotencyKey := none
  quantity_nonzero := by decide

/-- Two movements of nine o'clock on 2026-01-10, and one half an hour later. -/
def morning : Table MovementRow.id :=
  ⟨[⟨1, 1768035600000000, saleOfTwo⟩, ⟨2, 1768037400250000, saleOfTwo⟩,
    ⟨3, 1768035600000000, saleOfTwo⟩], by decide⟩

/-- What the texts of that morning are read as. -/
def morningReaders : Readers where
  fromisoformat text :=
    if text = str "2026-01-10T09:00:00+00:00" then some 1768035600000000
    else if text = str "2026-01-10T09:30:00.250000+00:00" then some 1768037400250000
    else none
  uuid text :=
    if text = str "00000000-0000-0000-0000-000000000001" then some 1
    else if text = str "00000000-0000-0000-0000-000000000002" then some 2
    else if text = str "00000000-0000-0000-0000-000000000003" then some 3
    else none

theorem movement_pages_morning : ∃ pages,
    Follows (listMovements morningReaders morning 2 ⟨none, none, none, none⟩) CursorPage.nextCursor
      none pages ∧ (pages.flatMap CursorPage.items).Perm morning.rows := by
  have hread : ∀ row ∈ morning.rows, morningReaders.Read row := by
    have htexts : ∀ row ∈ morning.rows,
        morningReaders.fromisoformat (isoformat row.occurredAt) = some row.occurredAt ∧
          morningReaders.uuid (uuidText row.id) = some row.id := by decide +kernel
    exact fun row hrow => ⟨(htexts row hrow).1, (htexts row hrow).2⟩
  have hlimit : 1 ≤ 2 := by decide
  obtain ⟨⟨pages, hpages, -, hperm, -⟩, -⟩ :=
    @movement_pages _ _ _ ⟨none, none, none, none⟩ hlimit hread
  exact ⟨pages, hpages, hperm⟩

end Nexora.Inventory
