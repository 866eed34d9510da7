import Nexora.Numbering.Allocator
import Nexora.Foundations.Delimited
import Nexora.Foundations.Interleaving
import Mathlib.Data.List.Nodup

/-!
# Gapless numbers

`document_sequences` as the transactions use it that draw numbers from it.  `allocate` is an
upsert: it makes the counter of a series and period on first use, or adds one to it, and it
locks the counter until the transaction ends.  A transaction that rolls back gives its numbers
back with the counter.

`gapless` says that the documents of a series and period hold the numbers from one on, in the
order of the commits, and that the texts of the numbers of a tenant are distinct.  The second
part rests on the text itself (`format_injective`): no series has a dash in its code, and the
counter is digits only, so the text says where the period begins and where it ends.
-/

namespace Nexora.Numbering

open Nexora Foundations

/-! ## The text of a number -/

/-- The counter with at least six digits. -/
def counterDigits (allocated : Nat) : List Char :=
  List.replicate (6 - (Nat.toDigits 10 allocated).length) '0' ++ Nat.toDigits 10 allocated

theorem counterDigits_injective {m n : Nat} (h : counterDigits m = counterDigits n) : m = n := by
  have hread : ∀ k, Nat.ofDigitChars 10 (counterDigits k) 0 = k := by
    intro k
    simp [counterDigits, Nat.ofDigitChars_append]
  rw [← hread m, ← hread n, h]

theorem dash_notMem_counterDigits (n : Nat) : '-' ∉ counterDigits n := by
  intro hmem
  rcases List.mem_append.mp hmem with hmem | hmem
  · cases List.eq_of_mem_replicate hmem
  · exact notMem_toDigits (by decide) n hmem

theorem toList_pushn (s : String) (c : Char) (n : Nat) :
    (s.pushn c n).toList = s.toList ++ List.replicate n c := by
  induction n with
  | zero => simp [String.pushn_eq_repeat_push, Nat.repeat]
  | succ n ih =>
      rw [String.pushn_eq_repeat_push] at ih ⊢
      rw [Nat.repeat, String.toList_push, ih, List.append_assoc, List.replicate_succ']

theorem toList_format (series : Series) (period : String) (allocated : Nat) :
    (series.format period allocated).toList =
      series.code.toList ++ '-' :: (period.toList ++ '-' :: counterDigits allocated) := by
  have hlength : allocated.repr.length = (Nat.toDigits 10 allocated).length := by
    rw [← String.length_toList, Nat.toList_repr]
  simp [Series.format, counterDigits, toList_pushn, hlength, Nat.toString_eq_repr, Nat.toList_repr]

theorem dash_notMem_code (series : Series) : '-' ∉ series.code.toList := by
  cases series <;> decide

theorem code_injective {series series' : Series} (h : series.code = series'.code) :
    series = series' := by
  cases series <;> cases series' <;> first | rfl | (revert h; decide)

/-- The text tells the series, the period and the counter. -/
theorem format_injective {series series' : Series} {period period' : String} {m n : Nat}
    (h : series.format period m = series'.format period' n) :
    series = series' ∧ period = period' ∧ m = n := by
  have hlists := congrArg String.toList h
  rw [toList_format, toList_format] at hlists
  obtain ⟨hcode, hrest⟩ :=
    append_cons_inj (dash_notMem_code series) (dash_notMem_code series') hlists
  -- The last dash is the first one from the right.
  have hreversed := congrArg List.reverse hrest
  simp only [List.reverse_append, List.reverse_cons, List.append_assoc, List.singleton_append]
    at hreversed
  obtain ⟨hcounter, hperiod⟩ := append_cons_inj (by simpa using dash_notMem_counterDigits m)
    (by simpa using dash_notMem_counterDigits n) hreversed
  refine ⟨code_injective (String.toList_injective hcode), ?_, ?_⟩
  · exact String.toList_injective (List.reverse_injective hperiod)
  · exact counterDigits_injective (List.reverse_injective hcounter)

/-! ## Counters -/

/-- The unique key of `document_sequences`. -/
structure SequenceKey where
  tenantId : Uuid
  series : Series
  period : String
deriving DecidableEq

/-- `DocumentSequence`. -/
structure DocumentSequence where
  id : Uuid
  key : SequenceKey
  nextValue : Nat
  code : String

/-- A document, by what names it: the table it is in gives the series. -/
structure Document where
  key : SequenceKey
  number : String

/-- The `INSERT … ON CONFLICT DO UPDATE` of `allocate`, with the row of the key if there is one.
`next_value` is a `BIGINT`. -/
def upsert (row : Option DocumentSequence) (id : Uuid) (key : SequenceKey) :
    Option DocumentSequence :=
  match row with
  | none => some { id := id, key := key, nextValue := 2, code := key.series.code }
  | some row =>
      if row.nextValue + 1 < 2 ^ 63 then some { row with nextValue := row.nextValue + 1 } else none

/-- `RETURNING next_value - 1`, as the text that `allocate` returns. -/
def DocumentSequence.allocated (row : DocumentSequence) (key : SequenceKey) : Document :=
  ⟨key, key.series.format key.period (row.nextValue - 1)⟩

/-- The number that comes next. -/
def nextValue (row : Option DocumentSequence) : Nat := row.elim 1 DocumentSequence.nextValue

/-- In a ledger that is changed by one request at a time, this is how numbers are drawn. -/
theorem allocate_upsert {db : Accounting.LedgerDb} {env : Accounting.Env}
    {row : Option DocumentSequence} {row' : DocumentSequence} {id : Uuid} {key : SequenceKey}
    (hperiod : key.period = toString env.today.year)
    (hnext : db.sequences key.series.name key.period = nextValue row)
    (h : upsert row id key = some row') :
    (allocate db key.series env).1 = (row'.allocated key).number ∧
      (allocate db key.series env).2.sequences key.series.name key.period = row'.nextValue := by
  have hvalue : row'.nextValue = nextValue row + 1 := by
    cases row with
    | none =>
        cases h
        rfl
    | some row =>
        simp only [upsert] at h
        split at h
        · cases h
          rfl
        · cases h
  simp [allocate, DocumentSequence.allocated, ← hperiod, hnext, hvalue]

/-! ## Transactions -/

/-- The committed counters and documents, in the order of the commits. -/
structure NumberingState where
  sequences : Table DocumentSequence.key
  documents : List Document

/-- An open transaction of a tenant: the counters as it has written them, and the documents
that hold the numbers it drew. -/
structure NumberingTx where
  tenantId : Uuid
  written : Table DocumentSequence.key
  documents : List Document

/-- A call of `allocate`, with the identifier it draws. -/
structure Draw where
  id : Uuid
  series : Series
  period : String

/-- The counter as the transaction sees it. -/
def NumberingTx.row (tx : NumberingTx) (state : NumberingState) (key : SequenceKey) :
    Option DocumentSequence :=
  (tx.written.get key).or (state.sequences.get key)

/-- `allocate`, and the document that takes the number. -/
def NumberingTx.allocate (state : NumberingState) (tx : NumberingTx) (draw : Draw) :
    Option NumberingTx :=
  let key : SequenceKey := ⟨tx.tenantId, draw.series, draw.period⟩
  (upsert (tx.row state key) draw.id key).map fun row =>
    { tx with
      written := tx.written.put row
      documents := tx.documents ++ [row.allocated key] }

/-- The commit. -/
def NumberingTx.commit (state : NumberingState) (tx : NumberingTx) : NumberingState where
  sequences := state.sequences.putAll tx.written.rows
  documents := state.documents ++ tx.documents

/-- Transactions that draw numbers.  The upsert locks the counter, and where there is none yet
its place in the unique index. -/
def numbering : Protocol NumberingState Uuid NumberingTx Draw SequenceKey where
  start _ tenantId := ⟨tenantId, .empty _, []⟩
  run state tx draw := (tx.allocate state draw).map fun tx => (state, tx)
  finish state tx := some (tx.commit state)
  locks tx := tx.written.rows.map fun row => (row.key, .update)

/-- Before the first document. -/
def NumberingState.new : NumberingState := ⟨.empty _, []⟩

/-! ## The numbers of a series and period -/

/-- The numbers that the documents of a series and period hold. -/
def numbersOf (documents : List Document) (key : SequenceKey) : List String :=
  (documents.filter (·.key = key)).map Document.number

theorem numbersOf_append (documents documents' : List Document) (key : SequenceKey) :
    numbersOf (documents ++ documents') key = numbersOf documents key ++ numbersOf documents' key := by
  simp [numbersOf]

/-- The texts of `count` numbers from `first` on. -/
def texts (key : SequenceKey) (first count : Nat) : List String :=
  (List.range' first count).map (key.series.format key.period)

theorem texts_append (key : SequenceKey) (first m n : Nat) :
    texts key first m ++ texts key (first + m) n = texts key first (m + n) := by
  rw [texts, texts, texts, ← List.map_append, List.range'_append_1]

/-- The counter is ahead of the documents by one. -/
def Gapless (state : NumberingState) : Prop :=
  ∀ key, ∃ n, nextValue (state.sequences.get key) = n + 1 ∧
    numbersOf state.documents key = texts key 1 n

/-- A transaction has drawn the next numbers of each counter it has locked. -/
def NumberingTx.Relies (state : NumberingState) (tx : NumberingTx) : Prop :=
  ∀ key, ∃ n, nextValue (tx.row state key) = nextValue (state.sequences.get key) + n ∧
    numbersOf tx.documents key = texts key (nextValue (state.sequences.get key)) n ∧
    (tx.written.get key = none → n = 0)

theorem get_commit (state : NumberingState) (tx : NumberingTx) (key : SequenceKey) :
    (tx.commit state).sequences.get key = tx.row state key :=
  Table.get_putAll tx.written.nodup state.sequences key

theorem upsert_eq_some {row : Option DocumentSequence} {row' : DocumentSequence} {id : Uuid}
    {key : SequenceKey} (hkey : ∀ r ∈ row, r.key = key) (h : upsert row id key = some row') :
    row'.key = key ∧ row'.nextValue = nextValue row + 1 := by
  cases row with
  | none =>
      cases h
      exact ⟨rfl, rfl⟩
  | some row =>
      simp only [upsert] at h
      split at h
      · cases h
        exact ⟨hkey row rfl, rfl⟩
      · cases h

theorem NumberingTx.row_key {tx : NumberingTx} {state : NumberingState} {key : SequenceKey} :
    ∀ r ∈ tx.row state key, r.key = key := by
  intro r hr
  rcases Option.or_eq_some_iff.mp hr with hr | ⟨-, hr⟩
  · exact (Table.get_mem hr).2
  · exact (Table.get_mem hr).2

/-- Drawing a number. -/
theorem NumberingTx.Relies.allocate {state : NumberingState} {tx tx' : NumberingTx} {draw : Draw}
    (h : tx.Relies state) (hdraw : tx.allocate state draw = some tx') : tx'.Relies state := by
  obtain ⟨row, hupsert, rfl⟩ := Option.map_eq_some_iff.mp hdraw
  obtain ⟨hkey, hnext⟩ := upsert_eq_some NumberingTx.row_key hupsert
  intro key
  obtain ⟨n, hrow, hnumbers, hnone⟩ := h key
  by_cases hsame : key = ⟨tx.tenantId, draw.series, draw.period⟩
  · subst hsame
    refine ⟨n + 1, ?_, ?_, ?_⟩
    · simp only [NumberingTx.row, Table.get_put, hkey, if_true, Option.some_or, nextValue,
        Option.elim_some]
      rw [hnext, hrow]
      rfl
    · have hallocated : numbersOf [row.allocated ⟨tx.tenantId, draw.series, draw.period⟩]
          ⟨tx.tenantId, draw.series, draw.period⟩ = texts ⟨tx.tenantId, draw.series, draw.period⟩
            (nextValue (state.sequences.get ⟨tx.tenantId, draw.series, draw.period⟩) + n) 1 := by
        simp [numbersOf, DocumentSequence.allocated, texts, hnext, hrow]
      rw [numbersOf_append, hnumbers, hallocated, texts_append]
    · intro hwritten
      simp [Table.get_put, hkey] at hwritten
  · refine ⟨n, ?_, ?_, ?_⟩
    · simpa [NumberingTx.row, Table.get_put, hkey, hsame] using hrow
    · rw [numbersOf_append, hnumbers]
      have hother : (⟨tx.tenantId, draw.series, draw.period⟩ : SequenceKey) ≠ key :=
        fun heq => hsame heq.symm
      simp [numbersOf, DocumentSequence.allocated, hother]
    · simpa [Table.get_put, hkey, hsame] using hnone

/-- The numbers of a transaction follow those of the committed documents. -/
theorem Gapless.commit {state : NumberingState} {tx : NumberingTx} (h : Gapless state)
    (hrelies : tx.Relies state) : Gapless (tx.commit state) := by
  intro key
  obtain ⟨m, hnext, hcommitted⟩ := h key
  obtain ⟨n, hrow, hdrawn, -⟩ := hrelies key
  refine ⟨m + n, ?_, ?_⟩
  · rw [get_commit, hrow, hnext]
    omega
  · show numbersOf (state.documents ++ tx.documents) key = _
    rw [numbersOf_append, hcommitted, hdrawn, hnext, Nat.add_comm m 1, texts_append]

/-- A counter that another transaction wrote is not one of ours. -/
theorem NumberingTx.Relies.stable {state : NumberingState} {tx other : NumberingTx}
    (hother : other.Relies state)
    (hfree : locksConflict (numbering.locks other) (numbering.locks tx) = false) :
    other.Relies (tx.commit state) := by
  intro key
  obtain ⟨n, hrow, hnumbers, hnone⟩ := hother key
  cases hwritten : tx.written.get key with
  | none =>
      have hsame : (tx.commit state).sequences.get key = state.sequences.get key := by
        rw [get_commit, NumberingTx.row, hwritten, Option.none_or]
      have hview : other.row (tx.commit state) key = other.row state key := by
        rw [NumberingTx.row, NumberingTx.row, hsame]
      exact ⟨n, by rw [hview, hsame]; exact hrow, by rw [hsame]; exact hnumbers, hnone⟩
  | some row =>
      have hours : other.written.get key = none := by
        by_contra hsome
        obtain ⟨row', hrow'⟩ := Option.ne_none_iff_exists'.mp hsome
        obtain ⟨hmem', rfl⟩ := Table.get_mem hrow'
        obtain ⟨hmem, hkey⟩ := Table.get_mem hwritten
        refine notMem_of_update hfree (List.mem_map.mpr ⟨row', hmem', rfl⟩) ?_
        rw [← hkey]
        exact List.mem_map_of_mem (List.mem_map.mpr ⟨row, hmem, rfl⟩)
      have hzero := hnone hours
      subst hzero
      refine ⟨0, ?_, ?_, fun _ => rfl⟩
      · rw [NumberingTx.row, hours, Option.none_or]
        rfl
      · rw [hnumbers]
        rfl

theorem sound_numbering : numbering.Sound (fun _ _ => True) Gapless
    (fun state tx => tx.Relies state) where
  start state tenantId _ := fun key => ⟨0, rfl, rfl, fun _ => rfl⟩
  run state tx draw state' tx' h hrelies hrun := by
    obtain ⟨drawn, hdraw, heq⟩ := Option.map_eq_some_iff.mp hrun
    cases heq
    exact ⟨h, hrelies.allocate hdraw⟩
  run_stable state tx draw state' tx' other h _ hother hrun := by
    obtain ⟨drawn, -, heq⟩ := Option.map_eq_some_iff.mp hrun
    cases heq
    exact hother
  finish state tx state' h hrelies _ hfinish := by
    cases hfinish
    exact h.commit hrelies
  finish_stable state tx state' other _ _ _ hother hfree hfinish := by
    cases hfinish
    exact hother.stable hfree

/-! ## Distinct texts -/

/-- Values that are distinct within each class, and tell the class, are distinct. -/
theorem nodup_map_of_classes {α β γ : Type*} [DecidableEq β] (kind : α → β) {value : α → γ}
    {l : List α} (hvalue : ∀ a ∈ l, ∀ b ∈ l, value a = value b → kind a = kind b)
    (h : ∀ c, ((l.filter (kind · = c)).map value).Nodup) : (l.map value).Nodup := by
  induction l with
  | nil => exact List.nodup_nil
  | cons a l ih =>
      rw [List.map_cons, List.nodup_cons]
      constructor
      · intro hmem
        obtain ⟨b, hb, heq⟩ := List.mem_map.mp hmem
        have hkind := hvalue b (List.mem_cons_of_mem a hb) a (List.mem_cons_self ..) heq
        have hclass := h (kind a)
        rw [List.filter_cons_of_pos (by simp), List.map_cons, List.nodup_cons] at hclass
        refine hclass.1 (List.mem_map.mpr ⟨b, List.mem_filter.mpr ⟨hb, ?_⟩, heq⟩)
        simpa using hkind
      · refine ih (fun a ha b hb => hvalue a (List.mem_cons_of_mem _ ha) b
          (List.mem_cons_of_mem _ hb)) fun c => (h c).sublist (List.Sublist.map _ ?_)
        exact List.Sublist.filter _ (List.sublist_cons_self a l)

/-- A document holds a number of its series and period. -/
theorem Gapless.number {state : NumberingState} (h : Gapless state) {document : Document}
    (hmem : document ∈ state.documents) :
    ∃ n, document.number = document.key.series.format document.key.period n := by
  obtain ⟨n, -, hnumbers⟩ := h document.key
  have hnumber : document.number ∈ numbersOf state.documents document.key :=
    List.mem_map_of_mem (List.mem_filter.mpr ⟨hmem, decide_eq_true rfl⟩)
  rw [hnumbers] at hnumber
  obtain ⟨k, -, hk⟩ := List.mem_map.mp hnumber
  exact ⟨k, hk.symm⟩

/-- In every interleaving of transactions that draw numbers and commit or roll back, in every
committed state: the documents of a tenant, series and period hold the numbers from one on,
without a gap and each once, and the texts of all numbers of a tenant are distinct. -/
theorem gapless {s : Interleaved NumberingState NumberingTx}
    (h : numbering.Reaches (Protocol.init .new) s) :
    (∀ key : SequenceKey, ∃ n, numbersOf s.committed.documents key =
      (List.range' 1 n).map (key.series.format key.period)) ∧
    ∀ tenantId, ((s.committed.documents.filter (·.key.tenantId = tenantId)).map
      Document.number).Nodup := by
  have hinv := (sound_numbering.runs h (.init fun key => ⟨0, rfl, rfl⟩)).committed
  have hkeys : ∀ key, (numbersOf s.committed.documents key).Nodup := by
    intro key
    obtain ⟨n, -, hnumbers⟩ := hinv key
    rw [hnumbers]
    exact List.Nodup.map (fun _ _ heq => (format_injective heq).2.2) List.nodup_range'
  refine ⟨fun key => ?_, fun tenantId => ?_⟩
  · obtain ⟨n, -, hnumbers⟩ := hinv key
    exact ⟨n, hnumbers⟩
  · refine nodup_map_of_classes Document.key (fun a ha b hb heq => ?_) fun key => ?_
    · obtain ⟨ha, hta⟩ := List.mem_filter.mp ha
      obtain ⟨hb, htb⟩ := List.mem_filter.mp hb
      obtain ⟨m, hm⟩ := hinv.number ha
      obtain ⟨n, hn⟩ := hinv.number hb
      rw [hm, hn] at heq
      obtain ⟨hseries, hperiod, -⟩ := format_injective heq
      rw [decide_eq_true_eq] at hta htb
      calc a.key = ⟨a.key.tenantId, a.key.series, a.key.period⟩ := rfl
        _ = ⟨b.key.tenantId, b.key.series, b.key.period⟩ := by
            rw [hta, htb, hseries, hperiod]
        _ = b.key := rfl
    · refine (hkeys key).sublist (List.Sublist.map _ (List.Sublist.filter _ ?_))
      exact List.filter_sublist

/-- An invoice is rolled back while the year turns, and the next one takes its number. -/
def rolledBack : List (TxAction Uuid Draw) :=
  [.begin 1 7, .run 1 ⟨1, .invoice, "2026"⟩, .begin 2 7, .run 2 ⟨2, .invoice, "2027"⟩, .abort 1,
   .begin 3 7, .run 3 ⟨3, .invoice, "2026"⟩, .run 3 ⟨4, .journal, "2026"⟩, .finish 2, .finish 3]

theorem gapless_rolledBack : ∃ s : Interleaved NumberingState NumberingTx,
    numbering.Reaches (Protocol.init .new) s ∧
      s.committed.documents.map Document.number =
        ["INV-2027-000001", "INV-2026-000001", "JE-2026-000001"] ∧
      ((s.committed.documents.filter (·.key.tenantId = 7)).map Document.number).Nodup := by
  have hsome : (rolledBack.foldlM numbering.step (Protocol.init .new)).isSome := by
    decide +kernel
  obtain ⟨s, hs⟩ := Option.isSome_iff_exists.mp hsome
  have hfacts : (rolledBack.foldlM numbering.step (Protocol.init .new)).all fun s =>
      s.committed.documents.map Document.number =
        ["INV-2027-000001", "INV-2026-000001", "JE-2026-000001"] := by decide +kernel
  rw [hs, Option.all_some, decide_eq_true_eq] at hfacts
  have hreaches := Protocol.Reaches.of_foldlM rolledBack hs
  exact ⟨s, hreaches, hfacts, (gapless hreaches).2 7⟩

end Nexora.Numbering
