import Nexora.Foundations.Interleaving
import Mathlib.Order.Defs.Unbundled

/-!
# Lock orders

A transaction locks rows one after another and keeps them to its end, and a row that it holds
already it does not wait for.  Any number of transactions run at once, each for some operation,
and any of them may end at any time.

`not_deadlocked` is why a lock order is used: while the operations that are open at one time
lock their rows along one order, no transactions wait for each other in a circle.  What carries
it is that a transaction that waits wants a row above all those that it holds, so along the
waits the wanted rows go up.

`deadlock_of_crossing` is the other direction, for two operations: if each wants a row that the
other one took before, and no row that was taken before is in both, then they deadlock.
-/

namespace Foundations

variable {Op Row : Type} [DecidableEq Row]

/-- The rows that a transaction holds, and those that it has still to lock. -/
structure LockTx (Row : Type) where
  held : List Row
  todo : List Row

/-- Transactions that lock the rows of their operations, and end. -/
def lockProtocol (rows : Op → List Row) : Protocol Unit Op (LockTx Row) Unit Row where
  start _ op := ⟨[], rows op⟩
  run _ tx _ :=
    match tx.todo with
    | [] => none
    | row :: todo => some ((), ⟨tx.held ++ [row], todo⟩)
  finish _ _ := some ()
  locks tx := tx.held.map fun row => (row, .update)

/-- `t` waits for a row that `t'` holds. -/
def Waits (s : Interleaved Unit (LockTx Row)) (t t' : Nat) : Prop :=
  ∃ tx tx' row, s.txs.get t = some (t, tx) ∧ s.txs.get t' = some (t', tx') ∧ t ≠ t' ∧
    tx.todo.head? = some row ∧ row ∈ tx'.held

/-- Some transactions wait for each other in a circle. -/
def Deadlocked (s : Interleaved Unit (LockTx Row)) : Prop := ∃ t, Relation.TransGen (Waits s) t t

/-! ## Rows in an order -/

/-- Each row that is not held yet is above the rows before it. -/
def Ascends (lt : Row → Row → Prop) (rows : List Row) : Prop :=
  ∀ before row after, rows = before ++ row :: after → row ∉ before → ∀ held ∈ before, lt held row

/-- The transactions that are open lock their rows along the order. -/
def Ordered (lt : Row → Row → Prop) (s : Interleaved Unit (LockTx Row)) : Prop :=
  ∀ tx ∈ s.txs.rows, Ascends lt (tx.2.held ++ tx.2.todo)

/-- An operation begins only where it and the open ones lock their rows along one order. -/
def Agree (rows : Op → List Row) (s : Interleaved Unit (LockTx Row)) : TxAction Op Unit → Prop
  | .begin _ op => ∃ lt, IsStrictOrder Row lt ∧ Ascends lt (rows op) ∧ Ordered lt s
  | _ => True

/-- Rows by a key, as `ORDER BY` gives them. -/
abbrev KeyBelow {K : Type*} [Preorder K] (key : Row → K) (row row' : Row) : Prop :=
  key row < key row'

omit [DecidableEq Row] in
theorem isStrictOrder_key {K : Type*} [Preorder K] (key : Row → K) :
    IsStrictOrder Row (KeyBelow key) :=
  { irrefl := fun row => lt_irrefl (key row), trans := fun _ _ _ => lt_trans }

omit [DecidableEq Row] in
theorem Ascends.nil (lt : Row → Row → Prop) : Ascends lt [] := by
  intro before row after heq
  cases (List.append_eq_nil_iff.mp heq.symm).2

omit [DecidableEq Row] in
/-- Rows that go up, followed by rows that go up from there or that are among them. -/
theorem Ascends.append {lt : Row → Row → Prop} {first more : List Row} (hfirst : Ascends lt first)
    (hmore : more.Pairwise fun row row' => row' ∈ first ∨ row = row' ∨ lt row row')
    (hcross : ∀ row ∈ first, ∀ row' ∈ more, row' ∈ first ∨ lt row row') :
    Ascends lt (first ++ more) := by
  intro before row after heq hnew held hheld
  rcases List.append_eq_append_iff.mp heq with ⟨between, rfl, rfl⟩ | ⟨rest, rfl, hrest⟩
  · have hfar : row ∉ first := fun h => hnew (List.mem_append_left _ h)
    rcases List.mem_append.mp hheld with hheld | hheld
    · exact (hcross held hheld row (by simp)).resolve_left hfar
    · rcases (List.pairwise_append.mp hmore).2.2 held hheld row List.mem_cons_self with h | rfl | h
      · exact absurd h hfar
      · exact absurd (List.mem_append_right _ hheld) hnew
      · exact h
  · cases rest with
    | nil =>
        have hmem : row ∈ more := by
          rw [← show row :: after = more from hrest]
          exact List.mem_cons_self
        exact (hcross held (by simpa using hheld) row hmem).resolve_left (by simpa using hnew)
    | cons first rest =>
        obtain ⟨rfl, -⟩ := List.cons.inj hrest
        exact hfirst before row rest rfl hnew held hheld

omit [DecidableEq Row] in
/-- The same for the rows of one line of a document after another. -/
theorem Ascends.append_flatMap {Line : Type} {lt : Row → Row → Prop} {first : List Row}
    {lines : List Line} {f : Line → List Row} (hfirst : Ascends lt first)
    (hline : ∀ line ∈ lines,
      (f line).Pairwise fun row row' => row' ∈ first ∨ row = row' ∨ lt row row')
    (hcross : ∀ row ∈ first, ∀ line ∈ lines, ∀ row' ∈ f line, row' ∈ first ∨ lt row row')
    (hlines : lines.Pairwise fun line line' =>
      ∀ row ∈ f line, ∀ row' ∈ f line', row' ∈ first ∨ row' ∈ f line ∨ lt row row') :
    Ascends lt (first ++ lines.flatMap f) := by
  induction lines generalizing first with
  | nil => simpa using hfirst
  | cons line lines ih =>
      obtain ⟨hhead, hlines⟩ := List.pairwise_cons.mp hlines
      rw [List.flatMap_cons, ← List.append_assoc]
      refine ih ?_ (fun line' hline' => ?_) ?_ (hlines.imp fun h row hrow row' hrow' => ?_)
      · refine hfirst.append (hline line List.mem_cons_self) fun row hrow row' hrow' => ?_
        exact hcross row hrow line List.mem_cons_self row' hrow'
      · exact (hline line' (.tail _ hline')).imp fun h => h.imp_left (List.mem_append_left _)
      · intro row hrow line' hline' row' hrow'
        rw [List.mem_append]
        rcases List.mem_append.mp hrow with hrow | hrow
        · exact (hcross row hrow line' (.tail _ hline') row' hrow').imp_left .inl
        · exact or_assoc.mpr (hhead line' hline' row hrow row' hrow')
      · exact (h row hrow row' hrow').imp_left (List.mem_append_left _)

omit [DecidableEq Row] in
/-- Rows that are sorted go up. -/
theorem Ascends.of_pairwise {lt : Row → Row → Prop} {sorted : List Row}
    (h : sorted.Pairwise fun row row' => row = row' ∨ lt row row') : Ascends lt sorted := by
  exact (Ascends.nil lt).append (h.imp .inr) (List.forall_mem_nil _)

variable {rows : Op → List Row} {s s' : Interleaved Unit (LockTx Row)}

/-- The rows that are held are held by one transaction. -/
theorem sound_lockProtocol (rows : Op → List Row) :
    (lockProtocol rows).Sound (fun _ _ => True) (fun _ => True) (fun _ _ => True) :=
  ⟨fun _ _ _ => trivial, fun _ _ _ _ _ _ _ _ => ⟨trivial, trivial⟩,
    fun _ _ _ _ _ _ _ _ _ _ => trivial, fun _ _ _ _ _ _ _ => trivial,
    fun _ _ _ _ _ _ _ _ _ _ => trivial⟩

/-- A step opens an operation, or keeps the rows of each transaction. -/
theorem rows_of_step {action : TxAction Op Unit}
    (hstep : (lockProtocol rows).step s action = some s') :
    ∀ tx ∈ s'.txs.rows, (∃ tx' ∈ s.txs.rows, tx'.2.held ++ tx'.2.todo = tx.2.held ++ tx.2.todo) ∨
      ∃ t op, action = .begin t op ∧ tx.2.held ++ tx.2.todo = rows op := by
  intro tx htx
  cases action with
  | begin t op =>
      simp only [Protocol.step] at hstep
      split at hstep
      next => cases hstep
      next =>
        unfold Protocol.enter at hstep
        split at hstep
        · cases hstep
          rcases Table.mem_put.mp htx with ⟨htx, -⟩ | rfl
          · exact .inl ⟨tx, htx, rfl⟩
          · exact .inr ⟨t, op, rfl, rfl⟩
        · cases hstep
  | run t choice =>
      simp only [Protocol.step] at hstep
      split at hstep
      next => cases hstep
      next old hold =>
        split at hstep
        next => cases hstep
        next committed phase hrun =>
          unfold Protocol.enter at hstep
          split at hstep
          · cases hstep
            rcases Table.mem_put.mp htx with ⟨htx, -⟩ | rfl
            · exact .inl ⟨tx, htx, rfl⟩
            · refine .inl ⟨old, (Table.get_mem hold).1, ?_⟩
              obtain ⟨t', held, todo⟩ := old
              cases todo with
              | nil => cases hrun
              | cons row todo =>
                  cases hrun
                  simp
          · cases hstep
  | finish t =>
      simp only [Protocol.step] at hstep
      split at hstep
      next => cases hstep
      next =>
        split at hstep
        · cases hstep
        · cases hstep
          exact .inl ⟨tx, (Protocol.mem_erase htx).1, rfl⟩
  | abort t =>
      cases hstep
      exact .inl ⟨tx, (Protocol.mem_erase htx).1, rfl⟩

/-- Operations that lock their rows along an order stay so. -/
theorem Ordered.step {lt : Row → Row → Prop} {action : TxAction Op Unit} (hordered : Ordered lt s)
    (hbegin : ∀ t op, action = .begin t op → Ascends lt (rows op))
    (hstep : (lockProtocol rows).step s action = some s') : Ordered lt s' := by
  intro tx htx
  rcases rows_of_step hstep tx htx with ⟨tx', htx', heq⟩ | ⟨t, op, rfl, heq⟩
  · rw [← heq]
    exact hordered tx' htx'
  · rw [heq]
    exact hbegin t op rfl

/-- There is an order for the transactions that are open. -/
theorem ordered_step {action : TxAction Op Unit} (h : ∃ lt, IsStrictOrder Row lt ∧ Ordered lt s)
    (hagree : Agree rows s action) (hstep : (lockProtocol rows).step s action = some s') :
    ∃ lt, IsStrictOrder Row lt ∧ Ordered lt s' := by
  cases action with
  | begin t op =>
      obtain ⟨lt, hlt, hascends, hordered⟩ := hagree
      exact ⟨lt, hlt, hordered.step (fun t' op' heq => by cases heq; exact hascends) hstep⟩
  | _ =>
      obtain ⟨lt, hlt, hordered⟩ := h
      exact ⟨lt, hlt, hordered.step nofun hstep⟩

/-- Operations that lock their rows along one order agree on one. -/
theorem agree_of_order {lt : Row → Row → Prop} (hlt : IsStrictOrder Row lt) {Q : Op → Prop}
    (hQ : ∀ op, Q op → Ascends lt (rows op))
    (h : Run (Protocol.opens Q) (fun s action s' => (lockProtocol rows).step s action = some s')
      (Protocol.init ()) s) :
    Run (Agree rows) (fun s action s' => (lockProtocol rows).step s action = some s')
      (Protocol.init ()) s ∧ Ordered lt s := by
  induction h with
  | refl => exact ⟨.refl _, List.forall_mem_nil _⟩
  | @tail s₁ _ _ hlast ih =>
      obtain ⟨action, hopens, hstep⟩ := hlast
      obtain ⟨hrun, hordered⟩ := ih
      have hbegin : ∀ t op, action = .begin t op → Ascends lt (rows op) := by
        rintro t op rfl
        exact hQ op hopens
      have hagree : Agree rows s₁ action := by
        cases action with
        | begin t op => exact ⟨lt, hlt, hbegin t op rfl, hordered⟩
        | _ => trivial
      exact ⟨hrun.snoc hagree hstep, hordered.step hbegin hstep⟩

/-! ## No circle of waits -/

/-- The row that an open transaction wants next. -/
def Wants (s : Interleaved Unit (LockTx Row)) (t : Nat) (row : Row) : Prop :=
  ∃ tx, s.txs.get t = some (t, tx) ∧ tx.todo.head? = some row

omit [DecidableEq Row] in
theorem Wants.unique {t : Nat} {row row' : Row} (h : Wants s t row) (h' : Wants s t row') :
    row = row' := by
  obtain ⟨tx, htx, hrow⟩ := h
  obtain ⟨tx', htx', hrow'⟩ := h'
  rw [htx] at htx'
  cases htx'
  exact Option.some.inj (hrow.symm.trans hrow')

/-- The one that is waited for wants a row above, if it waits itself. -/
theorem lt_of_waits {lt : Row → Row → Prop}
    (hinv : (lockProtocol rows).Inv (fun _ => True) (fun _ _ => True) s) (hordered : Ordered lt s)
    {t t' t'' : Nat} {row row' : Row} (hwaits : Waits s t t') (hwaits' : Waits s t' t'')
    (hrow : Wants s t row) (hrow' : Wants s t' row') : lt row row' := by
  obtain ⟨tx, tx₁, wanted, htx, htx₁, -, hhead, hheld⟩ := hwaits
  obtain ⟨tx₁', tx₂, wanted', htx₁', htx₂, hne, hhead', hheld'⟩ := hwaits'
  obtain rfl : wanted = row := Wants.unique ⟨tx, htx, hhead⟩ hrow
  obtain rfl : wanted' = row' := Wants.unique ⟨tx₁', htx₁', hhead'⟩ hrow'
  rw [htx₁] at htx₁'
  cases htx₁'
  -- Who waits for a row does not hold it.
  have hfree : wanted' ∉ tx₁.held := by
    intro hmem
    have hconflict := hinv.exclusive (t', tx₁) (Table.get_mem htx₁).1 (t'', tx₂)
      (Table.get_mem htx₂).1 hne
    refine notMem_of_update hconflict (List.mem_map_of_mem hmem) ?_
    exact List.mem_map.mpr ⟨_, List.mem_map_of_mem hheld', rfl⟩
  obtain ⟨todo, htodo⟩ := List.head?_eq_some_iff.mp hhead'
  have hascends := hordered (t', tx₁) (Table.get_mem htx₁).1
  exact hascends tx₁.held wanted' todo (by rw [htodo]) hfree wanted hheld

omit [DecidableEq Row] in
theorem Waits.wants {t t' : Nat} (h : Waits s t t') : ∃ row, Wants s t row := by
  obtain ⟨tx, -, row, htx, -, -, hhead, -⟩ := h
  exact ⟨row, tx, htx, hhead⟩

/-- Along the waits the wanted rows go up. -/
theorem lt_of_transGen {lt : Row → Row → Prop} [IsStrictOrder Row lt]
    (hinv : (lockProtocol rows).Inv (fun _ => True) (fun _ _ => True) s) (hordered : Ordered lt s)
    {t t' : Nat} (h : Relation.TransGen (Waits s) t t') {row : Row} (hrow : Wants s t row) :
    ∀ t'' row', Waits s t' t'' → Wants s t' row' → lt row row' := by
  induction h with
  | single hwaits =>
      intro t'' row' hwaits' hrow'
      exact lt_of_waits hinv hordered hwaits hwaits' hrow hrow'
  | tail _ hwaits ih =>
      intro t'' row' hwaits' hrow'
      obtain ⟨between, hbetween⟩ := hwaits.wants
      exact trans_of lt (ih _ between hwaits hbetween)
        (lt_of_waits hinv hordered hwaits hwaits' hbetween hrow')

/-- Where operations that are open at one time lock their rows along one order, no transactions
wait for each other in a circle. -/
theorem not_deadlocked
    (h : Run (Agree rows) (fun s action s' => (lockProtocol rows).step s action = some s')
      (Protocol.init ()) s) : ¬Deadlocked s := by
  have hinv : (lockProtocol rows).Inv (fun _ => True) (fun _ _ => True) s ∧
      ∃ lt, IsStrictOrder Row lt ∧ Ordered lt s := by
    refine h.invariant (I := fun s => (lockProtocol rows).Inv (fun _ => True) (fun _ _ => True) s ∧
      ∃ lt, IsStrictOrder Row lt ∧ Ordered lt s)
      (fun s action s' hs hagree hstep => ⟨?_, ordered_step hs.2 hagree hstep⟩) ?_
    · refine hs.1.step (sound_lockProtocol rows) ?_ hstep
      cases action with
      | finish t => exact fun _ _ => trivial
      | _ => trivial
    · have hempty : IsStrictOrder Row fun _ _ => False :=
        { irrefl := fun _ h => h, trans := fun _ _ _ h => h.elim }
      exact ⟨.init trivial, _, hempty, List.forall_mem_nil _⟩
  obtain ⟨hinv, lt, hlt, hordered⟩ := hinv
  rintro ⟨t, hcircle⟩
  obtain ⟨t', hwaits, -⟩ := Relation.TransGen.head'_iff.mp hcircle
  obtain ⟨row, hrow⟩ := hwaits.wants
  exact irrefl row (lt_of_transGen hinv hordered hcircle hrow t' row hwaits hrow)

/-! ## Operations that cross -/

/-- No other transaction holds any of these rows. -/
def Free (s : Interleaved Unit (LockTx Row)) (t : Nat) (taken : List Row) : Prop :=
  ∀ t' tx, s.txs.get t' = some (t', tx) → t' ≠ t → ∀ row ∈ tx.held, row ∉ taken

theorem enter_of_free {t : Nat} {tx : LockTx Row} (hfree : Free s t tx.held) :
    (lockProtocol rows).enter s t tx = some ⟨(), s.txs.put (t, tx)⟩ := by
  refine if_pos fun other hother hne => ?_
  rw [locksConflict_eq_false]
  intro row mode mode' hmem hmem'
  obtain ⟨held, hheld, heq⟩ := List.mem_map.mp hmem
  obtain ⟨held', hheld', heq'⟩ := List.mem_map.mp hmem'
  cases heq
  cases heq'
  exact absurd hheld (hfree other.1 other.2 (Table.get_eq_some.mpr ⟨hother, rfl⟩) hne row hheld')

variable (rows) in
/-- A transaction takes the next rows of its list. -/
theorem reaches_locked {t : Nat} (taken more : List Row) {rest : List Row}
    (htx : s.txs.get t = some (t, ⟨taken, more ++ rest⟩)) (hfree : Free s t (taken ++ more)) :
    ∃ s', (lockProtocol rows).Reaches s s' ∧ s'.txs.get t = some (t, ⟨taken ++ more, rest⟩) ∧
      ∀ t', t' ≠ t → s'.txs.get t' = s.txs.get t' := by
  induction more generalizing s taken with
  | nil => exact ⟨s, .refl s, by simpa using htx, fun _ _ => rfl⟩
  | cons row more ih =>
      have hnext : Free s t (taken ++ [row]) := by
        intro t' tx' htx' hne held hheld hmem
        refine hfree t' tx' htx' hne held hheld ?_
        rcases List.mem_append.mp hmem with hmem | hmem
        · exact List.mem_append_left _ hmem
        · exact List.mem_append_right _ (List.mem_cons.mpr (.inl (List.mem_singleton.mp hmem)))
      let s₁ : Interleaved Unit (LockTx Row) :=
        ⟨(), s.txs.put (t, ⟨taken ++ [row], more ++ rest⟩)⟩
      have hstep : (lockProtocol rows).step s (.run t ()) = some s₁ := by
        simp only [Protocol.step, htx]
        exact enter_of_free hnext
      have hget : ∀ t', t' ≠ t → s₁.txs.get t' = s.txs.get t' := by
        intro t' hne
        exact (Table.get_put ..).trans (if_neg hne)
      have hfree₁ : Free s₁ t (taken ++ [row] ++ more) := by
        intro t' tx' htx' hne
        rw [hget t' hne] at htx'
        simpa using hfree t' tx' htx' hne
      obtain ⟨s', hreaches, htx', hothers⟩ :=
        ih (taken ++ [row]) (s := s₁) ((Table.get_put ..).trans (if_pos rfl)) hfree₁
      refine ⟨s', Relation.ReflTransGen.head ⟨.run t (), trivial, hstep⟩ hreaches, ?_, ?_⟩
      · simpa using htx'
      · exact fun t' hne => (hothers t' hne).trans (hget t' hne)

variable (rows) in
/-- An operation begins while no other transaction has its number. -/
theorem reaches_begun {t : Nat} (op : Op) (hclosed : s.txs.get t = none) :
    ∃ s', (lockProtocol rows).Reaches s s' ∧ s'.txs.get t = some (t, ⟨[], rows op⟩) ∧
      ∀ t', t' ≠ t → s'.txs.get t' = s.txs.get t' := by
  let s' : Interleaved Unit (LockTx Row) := ⟨(), s.txs.put (t, ⟨[], rows op⟩)⟩
  have hfree : Free s t [] := fun _ _ _ _ _ _ => List.not_mem_nil
  have hstep : (lockProtocol rows).step s (.begin t op) = some s' := by
    simp only [Protocol.step, hclosed]
    exact enter_of_free hfree
  refine ⟨s', .single ⟨.begin t op, trivial, hstep⟩, ?_, fun t' hne => ?_⟩
  · exact (Table.get_put ..).trans (if_pos rfl)
  · exact (Table.get_put ..).trans (if_neg hne)

/-- Two operations that want each a row that the other one took before, and that take no row
both before that, can wait for each other. -/
theorem deadlock_of_crossing {a b : Op} {heldA heldB restA restB : List Row} {rowA rowB : Row}
    (ha : rows a = heldA ++ rowA :: restA) (hb : rows b = heldB ++ rowB :: restB)
    (hdisjoint : heldA.Disjoint heldB) (hA : rowA ∈ heldB) (hB : rowB ∈ heldA) :
    ∃ s, (lockProtocol rows).Reaches (Protocol.init ()) s ∧ Deadlocked s := by
  obtain ⟨s₁, h₁, ha₁, hothers₁⟩ :=
    reaches_begun rows (s := Protocol.init ()) (t := 1) a rfl
  -- The first takes its rows while it is alone.
  have hfree₁ : Free s₁ 1 ([] ++ heldA) := by
    intro t tx htx hne
    rw [hothers₁ t hne] at htx
    cases htx
  rw [ha] at ha₁
  obtain ⟨s₂, h₂, ha₂, hothers₂⟩ := reaches_locked rows [] heldA ha₁ hfree₁
  have hclosed₂ : s₂.txs.get 2 = none := by
    rw [hothers₂ 2 (by decide), hothers₁ 2 (by decide)]
    rfl
  obtain ⟨s₃, h₃, hb₃, hothers₃⟩ := reaches_begun rows b hclosed₂
  have ha₃ := (hothers₃ 1 (by decide)).trans ha₂
  -- The second takes rows that the first one does not hold.
  have hfree₃ : Free s₃ 2 ([] ++ heldB) := by
    intro t tx htx hne row hheld hmem
    obtain rfl | hne₁ := eq_or_ne t 1
    · rw [ha₃] at htx
      cases htx
      exact hdisjoint hheld hmem
    · rw [hothers₃ t hne, hothers₂ t hne₁, hothers₁ t hne₁] at htx
      cases htx
  rw [hb] at hb₃
  obtain ⟨s₄, h₄, hb₄, hothers₄⟩ := reaches_locked rows [] heldB hb₃ hfree₃
  have ha₄ := (hothers₄ 1 (by decide)).trans ha₃
  have hwaits : Waits s₄ 1 2 := ⟨_, _, rowA, ha₄, hb₄, by decide, rfl, hA⟩
  have hwaits' : Waits s₄ 2 1 := ⟨_, _, rowB, hb₄, ha₄, by decide, rfl, hB⟩
  exact ⟨s₄, ((h₁.trans h₂).trans h₃).trans h₄, 1, .tail (.single hwaits) hwaits'⟩

end Foundations
