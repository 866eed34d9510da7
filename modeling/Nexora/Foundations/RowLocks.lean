import Nexora.Foundations.Runs
import Mathlib.Algebra.BigOperators.Group.List.Basic

/-!
# Transactions under row locks

A store maps keys to rows.  A transaction is a script of statements, each an
operation on the row with one key.  A statement locks its row, waits while another
transaction holds the lock, reads the row as it was last committed or as the
transaction itself left it, and either changes it or raises.  Locks are kept to the
end of the transaction (`SELECT ... FOR UPDATE`), and what it wrote becomes visible
when it commits.

`RowSystem.serial` is the theorem about such systems.  However the statements of any
number of transactions interleave, the committed store is what the committed
transactions leave when they run one after another, in the order of their commits.
A property of all committed states is then proved over lists of scripts.
-/

namespace Foundations

section Scripts

variable {K A V ε : Type} [DecidableEq K] (apply : A → V → Except ε V)

/-- Statements one after another on a store. -/
def exec (script : List (K × A)) (store : K → V) : Except ε (K → V) :=
  script.foldlM (fun store statement => do
    let row ← apply statement.2 (store statement.1)
    .ok (Function.update store statement.1 row)) store

/-- What a script does to the row with key `k`. -/
def execAt (k : K) (script : List (K × A)) (row : V) : Except ε V :=
  (script.filter (·.1 = k)).foldlM (fun row statement => apply statement.2 row) row

variable {apply}

theorem exec_cons {k : K} {a : A} {script : List (K × A)} {store store' : K → V} :
    exec apply ((k, a) :: script) store = .ok store' ↔
      ∃ row, apply a (store k) = .ok row ∧
        exec apply script (Function.update store k row) = .ok store' := by
  unfold exec
  rw [List.foldlM_cons, bind_eq_ok]
  constructor
  · rintro ⟨next, hnext, h⟩
    obtain ⟨row, hrow, hok⟩ := bind_eq_ok.mp hnext
    cases hok
    exact ⟨row, hrow, h⟩
  · rintro ⟨row, hrow, h⟩
    exact ⟨_, bind_eq_ok.mpr ⟨row, hrow, rfl⟩, h⟩

theorem exec_append {script script' : List (K × A)} {store store' : K → V} :
    exec apply (script ++ script') store = .ok store' ↔
      ∃ between, exec apply script store = .ok between ∧
        exec apply script' between = .ok store' := by
  unfold exec
  rw [List.foldlM_append, bind_eq_ok]

theorem execAt_of_notMem {k : K} {script : List (K × A)} {row : V}
    (h : ∀ statement ∈ script, statement.1 ≠ k) : execAt apply k script row = .ok row := by
  unfold execAt
  have hfilter : script.filter (·.1 = k) = [] :=
    List.filter_eq_nil_iff.mpr fun statement hmem => by simpa using h statement hmem
  rw [hfilter]
  rfl

/-- A script acts row by row. -/
theorem exec_eq_ok_iff {script : List (K × A)} {store store' : K → V} :
    exec apply script store = .ok store' ↔
      ∀ k, execAt apply k script (store k) = .ok (store' k) := by
  induction script generalizing store with
  | nil =>
      constructor
      · intro h
        cases h
        exact fun _ => rfl
      · intro h
        have heq : store = store' := funext fun k => Except.ok.inj (h k)
        rw [heq]
        rfl
  | cons statement script ih =>
      obtain ⟨k₀, a⟩ := statement
      have hhead : ∀ row row', execAt apply k₀ ((k₀, a) :: script) row = .ok row' ↔
          ∃ next, apply a row = .ok next ∧ execAt apply k₀ script next = .ok row' := by
        intro row row'
        unfold execAt
        rw [List.filter_cons_of_pos (by simp), List.foldlM_cons, bind_eq_ok]
      have hother : ∀ k, k ≠ k₀ → ∀ row, execAt apply k ((k₀, a) :: script) row =
          execAt apply k script row := by
        intro k hk row
        unfold execAt
        rw [List.filter_cons_of_neg (by simpa using hk.symm)]
      rw [exec_cons]
      constructor
      · rintro ⟨row, hrow, h⟩ k
        have hrest := ih.mp h k
        by_cases hk : k = k₀
        · subst hk
          rw [Function.update_self] at hrest
          exact (hhead _ _).mpr ⟨row, hrow, hrest⟩
        · rw [Function.update_of_ne hk] at hrest
          rw [hother k hk]
          exact hrest
      · intro h
        obtain ⟨row, hrow, hrest⟩ := (hhead _ _).mp (h k₀)
        refine ⟨row, hrow, ih.mpr fun k => ?_⟩
        by_cases hk : k = k₀
        · subst hk
          rw [Function.update_self]
          exact hrest
        · rw [Function.update_of_ne hk, ← hother k hk]
          exact h k

/-- What every statement keeps of a row, a script keeps of all rows. -/
theorem exec_preserves {I : V → Prop} {script : List (K × A)} {store store' : K → V}
    (hstep : ∀ statement ∈ script, ∀ row row', I row → apply statement.2 row = .ok row' → I row')
    (h : exec apply script store = .ok store') (hstore : ∀ k, I (store k)) (k : K) :
    I (store' k) := by
  refine foldlM_invariant ?_ (exec_eq_ok_iff.mp h k) (hstore k)
  intro statement hmem row row' hrow happly
  exact hstep statement (List.mem_filter.mp hmem).1 row row' hrow happly

/-- A measure of a row that every statement changes by `weight` changes by the sum
of the weights. -/
theorem exec_measure {M : Type} [AddCommMonoid M] {measure : V → M} {weight : A → M}
    {script : List (K × A)} {store store' : K → V}
    (hstep : ∀ statement ∈ script, ∀ row row', apply statement.2 row = .ok row' →
      measure row' = measure row + weight statement.2)
    (h : exec apply script store = .ok store') (k : K) :
    measure (store' k) = measure (store k) +
      ((script.filter (·.1 = k)).map fun statement => weight statement.2).sum := by
  have hrow := exec_eq_ok_iff.mp h k
  unfold execAt at hrow
  have hmem : ∀ statement ∈ script.filter (·.1 = k), statement ∈ script :=
    fun statement hs => (List.mem_filter.mp hs).1
  revert hrow
  generalize script.filter (·.1 = k) = steps at hmem
  generalize store k = row
  intro hrow
  induction steps generalizing row with
  | nil =>
      cases hrow
      simp
  | cons statement steps ih =>
      rw [List.foldlM_cons] at hrow
      obtain ⟨next, hnext, hrow⟩ := bind_eq_ok.mp hrow
      rw [ih (fun s hs => hmem s (List.mem_cons_of_mem _ hs)) next hrow,
        hstep statement (hmem statement List.mem_cons_self) row next hnext,
        List.map_cons, List.sum_cons, add_assoc]

end Scripts

/-! ## The system -/

/-- A transaction: its operation, the statements it has run and has still to run, and
the rows it holds as it sees them. -/
structure RowTx (O K A V : Type) where
  op : O
  ran : List (K × A)
  todo : List (K × A)
  session : K → Option V

/-- The committed rows, the holders of the locks, the open transactions, and the
operations committed so far, in order. -/
structure RowSystem (O K A V : Type) where
  committed : K → V
  locks : K → Option Nat
  txs : Nat → Option (RowTx O K A V)
  history : List O

inductive RowAction (O : Type) where
  | begin (t : Nat) (op : O)
  /-- The next statement of `t`. -/
  | run (t : Nat)
  | commit (t : Nat)
  | abort (t : Nat)

namespace RowSystem

variable {O K A V ε : Type} [DecidableEq K]

/-- The end of a transaction: its locks are free. -/
def finish (s : RowSystem O K A V) (t : Nat) : RowSystem O K A V :=
  { s with
    locks := fun k => (s.locks k).filter (· ≠ t)
    txs := Function.update s.txs t none }

/-- The row as a transaction sees it. -/
def read (s : RowSystem O K A V) (tx : RowTx O K A V) (k : K) : V :=
  (tx.session k).getD (s.committed k)

/-- One statement of one transaction, or its end.  `none` is a step that is not
enabled, such as a statement that waits for a lock. -/
def step (script : O → List (K × A)) (apply : A → V → Except ε V) (s : RowSystem O K A V) :
    RowAction O → Option (RowSystem O K A V)
  | .begin t op =>
      match s.txs t with
      | none =>
          some { s with txs := Function.update s.txs t (some ⟨op, [], script op, fun _ => none⟩) }
      | some _ => none
  | .run t =>
      match s.txs t with
      | some ⟨op, ran, (k, a) :: todo, session⟩ =>
          if s.locks k = none ∨ s.locks k = some t then
            match apply a (s.read ⟨op, ran, (k, a) :: todo, session⟩ k) with
            | .error _ => some (s.finish t)
            | .ok row =>
                some { s with
                  locks := Function.update s.locks k (some t)
                  txs := Function.update s.txs t
                    (some ⟨op, ran ++ [(k, a)], todo, Function.update session k (some row)⟩) }
          else none
      | _ => none
  | .commit t =>
      match s.txs t with
      | some ⟨op, ran, [], session⟩ =>
          some { s.finish t with
            committed := s.read ⟨op, ran, [], session⟩
            history := s.history ++ [op] }
      | _ => none
  | .abort t =>
      match s.txs t with
      | some _ => some (s.finish t)
      | none => none

/-- The system before any transaction. -/
def init (committed : K → V) : RowSystem O K A V :=
  { committed := committed
    locks := fun _ => none
    txs := fun _ => none
    history := [] }

/-! ## Serializability -/

/-- What one open transaction has done so far, seen from the committed rows.  A row
it holds is locked, a row it does not hold it has not touched, and each row is what
its statements make of the committed one. -/
structure Open (script : O → List (K × A)) (apply : A → V → Except ε V) (s : RowSystem O K A V)
    (t : Nat) (tx : RowTx O K A V) : Prop where
  held : ∀ k row, tx.session k = some row → s.locks k = some t
  untouched : ∀ k, tx.session k = none → ∀ statement ∈ tx.ran, statement.1 ≠ k
  seen : ∀ k, execAt apply k tx.ran (s.committed k) = .ok (s.read tx k)
  script : tx.ran ++ tx.todo = script tx.op

/-- The invariant of all interleavings, from the rows `rows` on. -/
structure Serial (script : O → List (K × A)) (apply : A → V → Except ε V) (rows : K → V)
    (s : RowSystem O K A V) : Prop where
  replay : exec apply (s.history.flatMap script) rows = .ok s.committed
  opened : ∀ t tx, s.txs t = some tx → s.Open script apply t tx

variable {script : O → List (K × A)} {apply : A → V → Except ε V} {rows : K → V}
  {s s' : RowSystem O K A V} {t t' : Nat} {tx : RowTx O K A V}

theorem Serial.init : Serial script apply rows (RowSystem.init rows) :=
  ⟨rfl, fun _ _ h => nomatch h⟩

/-- The end of a transaction leaves the others as they were. -/
theorem Open.finish (h : s.Open script apply t tx) (hne : t ≠ t') :
    (s.finish t').Open script apply t tx := by
  refine ⟨fun k row hrow => ?_, h.untouched, h.seen, h.script⟩
  show (s.locks k).filter (· ≠ t') = some t
  rw [h.held k row hrow, Option.filter_some, if_pos (by simpa using hne)]

theorem Serial.finish (h : Serial script apply rows s) (t : Nat) :
    Serial script apply rows (s.finish t) := by
  refine ⟨h.replay, fun t' tx htx => ?_⟩
  rcases update_eq_some.mp htx with ⟨-, hnone⟩ | ⟨hne, htx⟩
  · cases hnone
  · exact (h.opened t' tx htx).finish hne

theorem Serial.begin (h : Serial script apply rows s) (op : O) :
    Serial script apply rows
      { s with txs := Function.update s.txs t (some ⟨op, [], script op, fun _ => none⟩) } := by
  refine ⟨h.replay, fun t' tx htx => ?_⟩
  rcases update_eq_some.mp htx with ⟨rfl, hnew⟩ | ⟨-, htx⟩
  · cases hnew
    exact ⟨nofun, fun _ _ => nofun, fun _ => rfl, rfl⟩
  · exact ⟨(h.opened t' tx htx).held, (h.opened t' tx htx).untouched,
      (h.opened t' tx htx).seen, (h.opened t' tx htx).script⟩

/-- A statement that runs, as its own transaction sees it. -/
theorem Open.run {op : O} {ran todo : List (K × A)} {session : K → Option V} {k : K} {a : A}
    {row : V} (h : s.Open script apply t ⟨op, ran, (k, a) :: todo, session⟩)
    (hrow : apply a (s.read ⟨op, ran, (k, a) :: todo, session⟩ k) = .ok row)
    (txs : Nat → Option (RowTx O K A V)) :
    Open script apply { s with locks := Function.update s.locks k (some t), txs := txs } t
      ⟨op, ran ++ [(k, a)], todo, Function.update session k (some row)⟩ := by
  constructor
  · intro k' row' hrow'
    show Function.update s.locks k (some t) k' = some t
    rcases update_eq_some.mp hrow' with ⟨rfl, -⟩ | ⟨hne, hrow'⟩
    · rw [Function.update_self]
    · rw [Function.update_of_ne hne]
      exact h.held k' row' hrow'
  · intro k' hnone statement hmem
    replace hnone : Function.update session k (some row) k' = none := hnone
    rw [Function.update_apply] at hnone
    split_ifs at hnone with hk
    rcases List.mem_append.mp hmem with hmem | hmem
    · exact h.untouched k' hnone statement hmem
    · rw [List.mem_singleton.mp hmem]
      exact fun heq => hk heq.symm
  · intro k'
    have hseen := h.seen k'
    unfold execAt at hseen ⊢
    rw [List.filter_append, List.foldlM_append, hseen]
    by_cases hk : k' = k
    · subst hk
      rw [List.filter_cons_of_pos (by simp), List.filter_nil]
      have hread : read { s with locks := Function.update s.locks k' (some t), txs := txs }
          ⟨op, ran ++ [(k', a)], todo, Function.update session k' (some row)⟩ k' = row := by
        simp [read]
      rw [hread]
      show (apply a _ >>= pure) = _
      rw [bind_pure]
      exact hrow
    · rw [List.filter_cons_of_neg (by simpa using fun heq : k = k' => hk heq.symm), List.filter_nil]
      have hread : read { s with locks := Function.update s.locks k (some t), txs := txs }
          ⟨op, ran ++ [(k, a)], todo, Function.update session k (some row)⟩ k' =
          s.read ⟨op, ran, (k, a) :: todo, session⟩ k' := by
        simp [read, Function.update_of_ne hk]
      rw [hread]
      rfl
  · show (ran ++ [(k, a)]) ++ todo = script op
    rw [List.append_assoc]
    exact h.script

theorem Serial.run {op : O} {ran todo : List (K × A)} {session : K → Option V} {k : K} {a : A}
    {row : V} (h : Serial script apply rows s)
    (htx : s.txs t = some ⟨op, ran, (k, a) :: todo, session⟩)
    (hlock : s.locks k = none ∨ s.locks k = some t)
    (hrow : apply a (s.read ⟨op, ran, (k, a) :: todo, session⟩ k) = .ok row) :
    Serial script apply rows
      { s with
        locks := Function.update s.locks k (some t)
        txs := Function.update s.txs t
          (some ⟨op, ran ++ [(k, a)], todo, Function.update session k (some row)⟩) } := by
  refine ⟨h.replay, fun t' tx htx' => ?_⟩
  rcases update_eq_some.mp htx' with ⟨rfl, hnew⟩ | ⟨hne, htx'⟩
  · cases hnew
    exact (h.opened t' _ htx).run hrow _
  · have hopen := h.opened t' tx htx'
    refine ⟨fun k' row' hrow' => ?_, hopen.untouched, hopen.seen, hopen.script⟩
    have hheld := hopen.held k' row' hrow'
    show Function.update s.locks k (some t) k' = some t'
    have hk : k' ≠ k := by
      rintro rfl
      rcases hlock with hlock | hlock
      · rw [hlock] at hheld
        cases hheld
      · rw [hlock] at hheld
        exact hne (Option.some.inj hheld).symm
    rw [Function.update_of_ne hk]
    exact hheld

/-- A commit publishes rows that no other open transaction has read. -/
theorem Open.commit (h : s.Open script apply t tx) (hne : t ≠ t') {tx' : RowTx O K A V}
    (h' : s.Open script apply t' tx') (history : List O) :
    Open script apply { s.finish t' with committed := s.read tx', history := history } t tx := by
  refine ⟨(h.finish hne).held, h.untouched, fun k => ?_, h.script⟩
  cases hsession : tx.session k with
  | none =>
      rw [execAt_of_notMem (h.untouched k hsession)]
      simp [read, hsession]
  | some row =>
      -- The row is locked by `t`, so `t'` does not hold it.
      have hnone : tx'.session k = none := by
        cases hsession' : tx'.session k with
        | none => rfl
        | some row' =>
            have hlock := h.held k row hsession
            rw [h'.held k row' hsession'] at hlock
            exact absurd (Option.some.inj hlock).symm hne
      have hseen := h.seen k
      simp only [read, hsession, hnone, Option.getD_some, Option.getD_none] at hseen ⊢
      exact hseen

theorem Serial.commit {op : O} {ran : List (K × A)} {session : K → Option V}
    (h : Serial script apply rows s) (htx : s.txs t = some ⟨op, ran, [], session⟩) :
    Serial script apply rows
      { s.finish t with
        committed := s.read ⟨op, ran, [], session⟩
        history := s.history ++ [op] } := by
  have hopen := h.opened t _ htx
  constructor
  · show exec apply ((s.history ++ [op]).flatMap script) rows = _
    rw [List.flatMap_append, exec_append]
    refine ⟨s.committed, h.replay, ?_⟩
    have hran : ran = script op := by simpa using hopen.script
    rw [List.flatMap_singleton, ← hran, exec_eq_ok_iff]
    exact hopen.seen
  · intro t' tx htx'
    rcases update_eq_some.mp htx' with ⟨-, hnone⟩ | ⟨hne, htx'⟩
    · cases hnone
    · exact (h.opened t' tx htx').commit hne hopen _

theorem Serial.step {action : RowAction O} (h : Serial script apply rows s)
    (hstep : s.step script apply action = some s') : Serial script apply rows s' := by
  unfold RowSystem.step at hstep
  split at hstep
  next t op =>
    split at hstep
    · cases hstep
      exact h.begin op
    · cases hstep
  next t =>
    split at hstep
    next op ran k a todo session htx =>
      split_ifs at hstep with hlock
      split at hstep
      · cases hstep
        exact h.finish t
      · next row hrow =>
        cases hstep
        exact h.run htx hlock hrow
    next => cases hstep
  next t =>
    split at hstep
    next op ran session htx =>
      cases hstep
      exact h.commit htx
    next => cases hstep
  next t =>
    split at hstep
    · cases hstep
      exact h.finish t
    · cases hstep

/-- The runs of a row system. -/
def Runs (script : O → List (K × A)) (apply : A → V → Except ε V) :
    RowSystem O K A V → RowSystem O K A V → Prop :=
  Run (fun _ _ => True) fun s action s' => s.step script apply action = some s'

/-- In every interleaving the committed rows are what the committed operations leave
one after another, in the order of their commits. -/
theorem serial (h : Runs script apply (init rows) s) :
    exec apply (s.history.flatMap script) rows = .ok s.committed :=
  (Run.invariant (fun _ _ _ hs _ hstep => hs.step hstep) h Serial.init).replay

end RowSystem

end Foundations
