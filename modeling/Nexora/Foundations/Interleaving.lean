import Nexora.Foundations.KeyedTable
import Nexora.Foundations.Runs

/-!
# Interleaved transactions

Transactions of any number run statement by statement, under `READ COMMITTED`.  A protocol
says what one transaction does: the phase it starts in, what each statement makes of the
phase, and what its end makes of the committed state.  Statements read the committed state,
and what a transaction has read and will write is in its phase.  A statement may also act on
state that no transaction protects, such as a cache.

A phase holds row locks.  A statement that would take a lock that conflicts with one of
another open transaction is not enabled, which is how it waits, and it reads the rows as they
are when it runs.

`Protocol.Sound` is the rule for such systems.  `G` is an invariant of the committed state and
`P` what an open transaction relies on.  It asks what each transaction establishes for itself,
and that another one, holding no conflicting lock, does not disturb it.
-/

namespace Foundations

/-! ## Row locks -/

/-- The modes of row locks, from `FOR KEY SHARE` to `FOR UPDATE`. -/
inductive LockMode where
  | keyShare
  | share
  | noKeyUpdate
  | update
deriving DecidableEq, Repr

/-- Two transactions cannot hold a row in these modes at once. -/
def LockMode.conflicts : LockMode → LockMode → Bool
  | .keyShare, .update | .update, .keyShare => true
  | .keyShare, _ | _, .keyShare => false
  | .share, .share => false
  | _, _ => true

theorem LockMode.conflicts_update (mode : LockMode) : LockMode.update.conflicts mode = true := by
  cases mode <;> rfl

theorem LockMode.conflicts_symm (mode mode' : LockMode) :
    mode.conflicts mode' = mode'.conflicts mode := by
  cases mode <;> cases mode' <;> rfl

/-- Two lists of locks cannot be held at once. -/
def locksConflict {Row : Type} [DecidableEq Row] (held held' : List (Row × LockMode)) : Bool :=
  held.any fun a => held'.any fun b => a.1 = b.1 && a.2.conflicts b.2

section Locks

variable {Row : Type} [DecidableEq Row] {held held' : List (Row × LockMode)}

theorem locksConflict_eq_false :
    locksConflict held held' = false ↔
      ∀ row mode mode', (row, mode) ∈ held → (row, mode') ∈ held' → mode.conflicts mode' = false := by
  simp only [locksConflict, List.any_eq_false, Bool.and_eq_true, decide_eq_true_eq, not_exists,
    not_and, Bool.not_eq_true, List.any_eq_true, Prod.forall]
  constructor
  · intro h row mode mode' hmem hmem'
    exact h row mode hmem row mode' hmem' rfl
  · rintro h row mode hmem row' mode' hmem' rfl
    exact h row mode mode' hmem hmem'

theorem locksConflict_symm (held held' : List (Row × LockMode)) :
    locksConflict held held' = locksConflict held' held := by
  rw [Bool.eq_iff_iff, ← Bool.not_eq_false, ← Bool.not_eq_false, not_iff_not,
    locksConflict_eq_false, locksConflict_eq_false]
  constructor
  · intro h row mode mode' hmem hmem'
    rw [LockMode.conflicts_symm]
    exact h row mode' mode hmem' hmem
  · intro h row mode mode' hmem hmem'
    rw [LockMode.conflicts_symm]
    exact h row mode' mode hmem' hmem

/-- A row that is locked is locked by no one else in a conflicting mode. -/
theorem notMem_of_conflicts {row : Row} {mode mode' : LockMode}
    (h : locksConflict held held' = false) (hmem : (row, mode) ∈ held)
    (hconflict : mode.conflicts mode' = true) : (row, mode') ∉ held' := by
  intro hmem'
  rw [locksConflict_eq_false.mp h row mode mode' hmem hmem'] at hconflict
  cases hconflict

/-- A row that is locked `FOR UPDATE` is locked by no one else. -/
theorem notMem_of_update {row : Row} (h : locksConflict held held' = false)
    (hmem : (row, .update) ∈ held) : row ∉ held'.map Prod.fst := by
  intro hrow
  obtain ⟨⟨_, mode⟩, hmem', rfl⟩ := List.mem_map.mp hrow
  exact notMem_of_conflicts h hmem (LockMode.conflicts_update mode) hmem'

end Locks

/-! ## The system -/

/-- What one transaction does.  `S` is the committed state with what lies beside it. -/
structure Protocol (S Req Phase Choice Row : Type) where
  start : S → Req → Phase
  /-- The next statement, with what it leaves open. -/
  run : S → Phase → Choice → Option (S × Phase)
  /-- The end of the transaction: its commit, or the rollback of a request that raised. -/
  finish : S → Phase → Option S
  locks : Phase → List (Row × LockMode)

/-- The committed state and the open transactions. -/
structure Interleaved (S Phase : Type) where
  committed : S
  txs : Table (Prod.fst : Nat × Phase → Nat)

inductive TxAction (Req Choice : Type) where
  | begin (t : Nat) (req : Req)
  | run (t : Nat) (choice : Choice)
  | finish (t : Nat)
  /-- Anything else that ends a transaction. -/
  | abort (t : Nat)

variable {S Req Phase Choice Row : Type} [DecidableEq Row]

namespace Protocol

/-- The transaction reaches a phase, once no other holds a conflicting lock. -/
def enter (p : Protocol S Req Phase Choice Row) (s : Interleaved S Phase) (t : Nat) (phase : Phase) :
    Option (Interleaved S Phase) :=
  if ∀ tx ∈ s.txs.rows, tx.1 ≠ t → locksConflict (p.locks phase) (p.locks tx.2) = false then
    some { s with txs := s.txs.put (t, phase) }
  else none

/-- One statement of one transaction, or its end. -/
def step (p : Protocol S Req Phase Choice Row) (s : Interleaved S Phase) :
    TxAction Req Choice → Option (Interleaved S Phase)
  | .begin t req =>
      match s.txs.get t with
      | some _ => none
      | none => p.enter s t (p.start s.committed req)
  | .run t choice =>
      match s.txs.get t with
      | none => none
      | some tx =>
          match p.run s.committed tx.2 choice with
          | none => none
          | some (committed, phase) => p.enter { s with committed := committed } t phase
  | .finish t =>
      match s.txs.get t with
      | none => none
      | some tx =>
          match p.finish s.committed tx.2 with
          | none => none
          | some committed => some ⟨committed, s.txs.erase t⟩
  | .abort t => some { s with txs := s.txs.erase t }

/-- The state before any transaction. -/
def init (committed : S) : Interleaved S Phase := ⟨committed, .empty _⟩

/-- The steps that end no transaction, or one that meets `Q`. -/
def guard (Q : S → Phase → Prop) (s : Interleaved S Phase) : TxAction Req Choice → Prop
  | .finish t => ∀ tx ∈ s.txs.get t, Q s.committed tx.2
  | _ => True

/-- The interleavings in which every transaction meets `Q` when it ends. -/
def Runs (p : Protocol S Req Phase Choice Row) (Q : S → Phase → Prop) :
    Interleaved S Phase → Interleaved S Phase → Prop :=
  Run (guard Q) fun s action s' => p.step s action = some s'

/-- The interleavings without a condition. -/
def Reaches (p : Protocol S Req Phase Choice Row) : Interleaved S Phase → Interleaved S Phase → Prop :=
  p.Runs fun _ _ => True

theorem guard_true (s : Interleaved S Phase) (action : TxAction Req Choice) :
    guard (fun _ _ => True) s action := by
  cases action with
  | finish t => exact fun _ _ => trivial
  | _ => trivial

theorem Reaches.of_run {p : Protocol S Req Phase Choice Row} {s s' : Interleaved S Phase}
    {guard : Interleaved S Phase → TxAction Req Choice → Prop}
    (h : Run guard (fun s action s' => p.step s action = some s') s s') : p.Reaches s s' := by
  exact Run.mono (fun s action _ => guard_true s action) h

/-- A sequence of steps that are all enabled is an interleaving. -/
theorem Reaches.of_foldlM {p : Protocol S Req Phase Choice Row} {s s' : Interleaved S Phase}
    (actions : List (TxAction Req Choice)) (h : actions.foldlM p.step s = some s') :
    p.Reaches s s' :=
  .of_run (Run.of_foldlM actions h)

/-- A sequence of enabled steps to a state with `F`. -/
theorem Reaches.exists_of_any {p : Protocol S Req Phase Choice Row} {s : Interleaved S Phase}
    {F : Interleaved S Phase → Prop} [DecidablePred F] (actions : List (TxAction Req Choice))
    (h : (actions.foldlM p.step s).any fun s' => F s') : ∃ s', p.Reaches s s' ∧ F s' := by
  obtain ⟨s', hs', hF⟩ := Option.any_eq_true _ _ |>.mp h
  exact ⟨s', .of_foldlM actions hs', of_decide_eq_true hF⟩

instance (Q : S → Phase → Prop) [∀ s phase, Decidable (Q s phase)] (s : Interleaved S Phase)
    (action : TxAction Req Choice) : Decidable (guard Q s action) :=
  match action with
  | .begin _ _ => .isTrue trivial
  | .run _ _ => .isTrue trivial
  | .finish t => inferInstanceAs (Decidable (∀ tx ∈ s.txs.get t, Q s.committed tx.2))
  | .abort _ => .isTrue trivial

/-- A sequence of enabled steps in which every transaction meets `Q` when it ends. -/
theorem Runs.of_foldlM {p : Protocol S Req Phase Choice Row} {Q : S → Phase → Prop}
    [∀ s phase, Decidable (Q s phase)] {s s' : Interleaved S Phase}
    (actions : List (TxAction Req Choice))
    (h : actions.foldlM (fun s action => if guard Q s action then p.step s action else none) s =
      some s') : p.Runs Q s s' :=
  Run.of_guarded actions h

/-- The steps of `Runs`, as a function. -/
def guarded (p : Protocol S Req Phase Choice Row) (Q : S → Phase → Prop)
    [∀ s phase, Decidable (Q s phase)] (s : Interleaved S Phase) (action : TxAction Req Choice) :
    Option (Interleaved S Phase) :=
  if guard Q s action then p.step s action else none

/-- The same, where every transaction meets `Q` when it ends. -/
theorem Runs.exists_of_any {p : Protocol S Req Phase Choice Row} {Q : S → Phase → Prop}
    [∀ s phase, Decidable (Q s phase)] {s : Interleaved S Phase} {F : Interleaved S Phase → Prop}
    [DecidablePred F] (actions : List (TxAction Req Choice))
    (h : (actions.foldlM (p.guarded Q) s).any fun s' => F s') : ∃ s', p.Runs Q s s' ∧ F s' :=
  Run.exists_of_any actions h

theorem enter_committed {p : Protocol S Req Phase Choice Row} {s s' : Interleaved S Phase} {t : Nat}
    {phase : Phase} (h : p.enter s t phase = some s') : s'.committed = s.committed := by
  unfold enter at h
  split at h
  · cases h
    rfl
  · cases h

/-! ### What a step does -/

section Steps

variable {p : Protocol S Req Phase Choice Row} {s s' : Interleaved S Phase} {t : Nat}

theorem enter_eq_some {phase : Phase} (h : p.enter s t phase = some s') :
    s' = ⟨s.committed, s.txs.put (t, phase)⟩ := by
  unfold enter at h
  split at h
  · exact (Option.some.inj h).symm
  · cases h

theorem step_begin {req : Req} (h : p.step s (.begin t req) = some s') :
    s.txs.get t = none ∧ s' = ⟨s.committed, s.txs.put (t, p.start s.committed req)⟩ := by
  simp only [step] at h
  split at h
  next => cases h
  next hnone => exact ⟨hnone, enter_eq_some h⟩

theorem step_run {choice : Choice} (h : p.step s (.run t choice) = some s') :
    ∃ old committed phase, s.txs.get t = some (t, old) ∧
      p.run s.committed old choice = some (committed, phase) ∧
        s' = ⟨committed, s.txs.put (t, phase)⟩ := by
  simp only [step] at h
  split at h
  next => cases h
  next tx hget =>
    obtain ⟨t', old⟩ := tx
    obtain rfl : t' = t := (Table.get_mem hget).2
    split at h
    next => cases h
    next committed phase hrun => exact ⟨old, committed, phase, hget, hrun, enter_eq_some h⟩

theorem step_finish (h : p.step s (.finish t) = some s') :
    ∃ old committed, s.txs.get t = some (t, old) ∧ p.finish s.committed old = some committed ∧
      s' = ⟨committed, s.txs.erase t⟩ := by
  simp only [step] at h
  split at h
  next => cases h
  next tx hget =>
    obtain ⟨t', old⟩ := tx
    obtain rfl : t' = t := (Table.get_mem hget).2
    split at h
    next => cases h
    next committed hfinish => exact ⟨old, committed, hget, hfinish, (Option.some.inj h).symm⟩

end Steps

/-- What a step may do to the committed state. -/
theorem step_committed {p : Protocol S Req Phase Choice Row} {s s' : Interleaved S Phase}
    {action : TxAction Req Choice} (h : p.step s action = some s') :
    s'.committed = s.committed ∨ ∃ t tx, s.txs.get t = some tx ∧
      ((∃ choice phase, action = .run t choice ∧
        p.run s.committed tx.2 choice = some (s'.committed, phase)) ∨
        action = .finish t ∧ p.finish s.committed tx.2 = some s'.committed) := by
  cases action with
  | begin t req =>
      simp only [step] at h
      split at h
      · cases h
      · exact .inl (enter_committed h)
  | run t choice =>
      simp only [step] at h
      split at h
      next => cases h
      next tx htx =>
        split at h
        next => cases h
        next committed phase hrun =>
          refine .inr ⟨t, tx, htx, .inl ⟨choice, phase, rfl, ?_⟩⟩
          rw [enter_committed h]
          exact hrun
  | finish t =>
      simp only [step] at h
      split at h
      next => cases h
      next tx htx =>
        split at h
        next => cases h
        next committed hfinish =>
          cases h
          exact .inr ⟨t, tx, htx, .inr ⟨rfl, hfinish⟩⟩
  | abort t =>
      cases h
      exact .inl rfl

/-! ## The rule -/

/-- `G` is kept by every transaction, and what one relies on is kept by the others. -/
structure Sound (p : Protocol S Req Phase Choice Row) (Q : S → Phase → Prop) (G : S → Prop)
    (P : S → Phase → Prop) : Prop where
  start : ∀ s req, G s → P s (p.start s req)
  run : ∀ s phase choice s' phase', G s → P s phase → p.run s phase choice = some (s', phase') →
    G s' ∧ P s' phase'
  run_stable : ∀ s phase choice s' phase' other, G s → P s phase → P s other →
    p.run s phase choice = some (s', phase') → P s' other
  finish : ∀ s phase s', G s → P s phase → Q s phase → p.finish s phase = some s' → G s'
  finish_stable : ∀ s phase s' other, G s → P s phase → Q s phase → P s other →
    locksConflict (p.locks other) (p.locks phase) = false → p.finish s phase = some s' → P s' other

/-- The invariant of all interleavings. -/
structure Inv (p : Protocol S Req Phase Choice Row) (G : S → Prop) (P : S → Phase → Prop)
    (s : Interleaved S Phase) : Prop where
  committed : G s.committed
  opened : ∀ tx ∈ s.txs.rows, P s.committed tx.2
  exclusive : ∀ tx ∈ s.txs.rows, ∀ tx' ∈ s.txs.rows, tx.1 ≠ tx'.1 →
    locksConflict (p.locks tx.2) (p.locks tx'.2) = false

variable {p : Protocol S Req Phase Choice Row} {Q : S → Phase → Prop} {G : S → Prop}
  {P : S → Phase → Prop} {s s' : Interleaved S Phase}

theorem Inv.init {committed : S} (h : G committed) : p.Inv G P (init committed) :=
  ⟨h, nofun, nofun⟩

/-- A transaction reaches a phase. -/
theorem Inv.enter {t : Nat} {phase : Phase} (h : p.Inv G P s) (hphase : P s.committed phase)
    (henter : p.enter s t phase = some s') : p.Inv G P s' := by
  unfold Protocol.enter at henter
  split at henter
  next hfree =>
    cases henter
    refine ⟨h.committed, fun tx htx => ?_, fun tx htx tx' htx' hne => ?_⟩
    · rcases Table.mem_put.mp htx with ⟨htx, -⟩ | rfl
      · exact h.opened tx htx
      · exact hphase
    · rcases Table.mem_put.mp htx with ⟨htx, hne₁⟩ | rfl
      · rcases Table.mem_put.mp htx' with ⟨htx', -⟩ | rfl
        · exact h.exclusive tx htx tx' htx' hne
        · rw [locksConflict_symm]
          exact hfree tx htx hne₁
      · rcases Table.mem_put.mp htx' with ⟨htx', hne₁⟩ | rfl
        · exact hfree tx' htx' hne₁
        · exact absurd rfl hne
  next => cases henter

theorem mem_erase {t : Nat} {tx : Nat × Phase} (h : tx ∈ (s.txs.erase t).rows) :
    tx ∈ s.txs.rows ∧ tx.1 ≠ t := Table.mem_erase.mp h

/-- A transaction is over. -/
theorem Inv.erase {t : Nat} {committed : S} (h : p.Inv G P s) (hcommitted : G committed)
    (hopened : ∀ tx ∈ s.txs.rows, tx.1 ≠ t → P committed tx.2) :
    p.Inv G P ⟨committed, s.txs.erase t⟩ := by
  refine ⟨hcommitted, fun tx htx => ?_, fun tx htx tx' htx' => ?_⟩
  · exact hopened tx (mem_erase htx).1 (mem_erase htx).2
  · exact h.exclusive tx (mem_erase htx).1 tx' (mem_erase htx').1

theorem Inv.step {action : TxAction Req Choice} (hsound : p.Sound Q G P) (h : p.Inv G P s)
    (hguard : guard Q s action) (hstep : p.step s action = some s') : p.Inv G P s' := by
  cases action with
  | begin t req =>
      simp only [Protocol.step] at hstep
      split at hstep
      · cases hstep
      · exact h.enter (hsound.start _ _ h.committed) hstep
  | run t choice =>
      simp only [Protocol.step] at hstep
      split at hstep
      next => cases hstep
      next tx htx =>
        split at hstep
        next => cases hstep
        next committed phase hrun =>
          have htx := h.opened tx (Table.get_mem htx).1
          obtain ⟨hG, hP⟩ := hsound.run _ _ _ _ _ h.committed htx hrun
          have hothers : p.Inv G P { s with committed := committed } :=
            ⟨hG, fun other hother => hsound.run_stable _ _ _ _ _ _ h.committed htx
              (h.opened other hother) hrun, h.exclusive⟩
          exact hothers.enter hP hstep
  | finish t =>
      simp only [Protocol.step] at hstep
      split at hstep
      next => cases hstep
      next tx htx =>
        split at hstep
        next => cases hstep
        next committed hfinish =>
          cases hstep
          have hQ := hguard tx htx
          obtain ⟨hmem, hid⟩ := Table.get_mem htx
          have htx := h.opened tx hmem
          refine h.erase (hsound.finish _ _ _ h.committed htx hQ hfinish) fun other hother hne => ?_
          refine hsound.finish_stable _ _ _ _ h.committed htx hQ (h.opened other hother) ?_ hfinish
          exact h.exclusive other hother tx hmem (hid ▸ hne)
  | abort t =>
      cases hstep
      exact h.erase h.committed fun tx htx _ => h.opened tx htx

/-- Every interleaving keeps the invariant. -/
theorem Sound.runs (hsound : p.Sound Q G P) (h : p.Runs Q s s') (hs : p.Inv G P s) :
    p.Inv G P s' :=
  Run.invariant (fun _ _ _ hs hguard hstep => hs.step hsound hguard hstep) h hs

/-- One more invariant, with what the open transactions rely on for it. -/
theorem Sound.extend (hsound : p.Sound Q G P) {E : S → Prop} {R : S → Phase → Prop}
    (hstart : ∀ s req, G s → E s → R s (p.start s req))
    (hrun : ∀ s phase choice s' phase', G s → P s phase → E s → R s phase →
      p.run s phase choice = some (s', phase') → E s' ∧ R s' phase')
    (hrun_stable : ∀ s phase choice s' phase' other, G s → P s phase → P s other → R s other →
      p.run s phase choice = some (s', phase') → R s' other)
    (hfinish : ∀ s phase s', G s → P s phase → Q s phase → E s → R s phase →
      p.finish s phase = some s' → E s')
    (hfinish_stable : ∀ s phase s' other, G s → P s phase → Q s phase → P s other → R s other →
      locksConflict (p.locks other) (p.locks phase) = false → p.finish s phase = some s' →
        R s' other) :
    p.Sound Q (fun s => G s ∧ E s) fun s phase => P s phase ∧ R s phase where
  start s req h := ⟨hsound.start s req h.1, hstart s req h.1 h.2⟩
  run s phase choice s' phase' h hP hstep := by
    obtain ⟨hG, hnext⟩ := hsound.run s phase choice s' phase' h.1 hP.1 hstep
    obtain ⟨hE, hR⟩ := hrun s phase choice s' phase' h.1 hP.1 h.2 hP.2 hstep
    exact ⟨⟨hG, hE⟩, hnext, hR⟩
  run_stable s phase choice s' phase' other h hP hother hstep :=
    ⟨hsound.run_stable s phase choice s' phase' other h.1 hP.1 hother.1 hstep,
      hrun_stable s phase choice s' phase' other h.1 hP.1 hother.1 hother.2 hstep⟩
  finish s phase s' h hP hQ hstep :=
    ⟨hsound.finish s phase s' h.1 hP.1 hQ hstep, hfinish s phase s' h.1 hP.1 hQ h.2 hP.2 hstep⟩
  finish_stable s phase s' other h hP hQ hother hfree hstep :=
    ⟨hsound.finish_stable s phase s' other h.1 hP.1 hQ hother.1 hfree hstep,
      hfinish_stable s phase s' other h.1 hP.1 hQ hother.1 hother.2 hfree hstep⟩

/-- One more property of the committed state. -/
theorem Sound.and (hsound : p.Sound Q G P) {E : S → Prop}
    (hrun : ∀ s phase choice s' phase', G s → P s phase → E s →
      p.run s phase choice = some (s', phase') → E s')
    (hfinish : ∀ s phase s', G s → P s phase → Q s phase → E s → p.finish s phase = some s' →
      E s') : p.Sound Q (fun s => G s ∧ E s) P where
  start s req h := hsound.start s req h.1
  run s phase choice s' phase' h hP hstep :=
    ⟨⟨(hsound.run s phase choice s' phase' h.1 hP hstep).1,
      hrun s phase choice s' phase' h.1 hP h.2 hstep⟩,
      (hsound.run s phase choice s' phase' h.1 hP hstep).2⟩
  run_stable s phase choice s' phase' other h := hsound.run_stable s phase choice s' phase' other h.1
  finish s phase s' h hP hQ hstep :=
    ⟨hsound.finish s phase s' h.1 hP hQ hstep, hfinish s phase s' h.1 hP hQ h.2 hstep⟩
  finish_stable s phase s' other h := hsound.finish_stable s phase s' other h.1

/-! ## The requests of the open transactions -/

/-- The steps that open only transactions for requests that meet `R`. -/
def opens (R : Req → Prop) (_ : Interleaved S Phase) : TxAction Req Choice → Prop
  | .begin _ req => R req
  | _ => True

instance (R : Req → Prop) [DecidablePred R] (s : Interleaved S Phase)
    (action : TxAction Req Choice) : Decidable (opens R s action) :=
  match action with
  | .begin _ req => inferInstanceAs (Decidable (R req))
  | .run _ _ | .finish _ | .abort _ => .isTrue trivial

/-- The protocol, with the request beside the phase of each transaction. -/
def tagged (p : Protocol S Req Phase Choice Row) : Protocol S Req (Req × Phase) Choice Row where
  start s req := (req, p.start s req)
  run s tx choice := (p.run s tx.2 choice).map fun out => (out.1, tx.1, out.2)
  finish s tx := p.finish s tx.2
  locks tx := p.locks tx.2

/-- The transactions that are open were opened for requests that meet `R`. -/
theorem opens_open {R : Req → Prop} {s : Interleaved S (Req × Phase)} {committed : S}
    (h : Run (opens R) (fun s action s' => p.tagged.step s action = some s') (Protocol.init committed)
      s) : ∀ tx ∈ s.txs.rows, R tx.2.1 := by
  refine h.invariant (I := fun s => ∀ tx ∈ s.txs.rows, R tx.2.1) ?_ (List.forall_mem_nil _)
  intro s action s' hs hopens hstep tx htx
  have hentered : ∀ (committed : S) (t : Nat) (tx' : Req × Phase), R tx'.1 →
      p.tagged.enter { s with committed := committed } t tx' = some s' → R tx.2.1 := by
    intro committed t tx' hR henter
    unfold Protocol.enter at henter
    split at henter
    · cases henter
      rcases Table.mem_put.mp htx with ⟨htx, -⟩ | rfl
      · exact hs tx htx
      · exact hR
    · cases henter
  cases action with
  | begin t req =>
      simp only [Protocol.step] at hstep
      split at hstep
      · cases hstep
      · exact hentered s.committed t (req, p.start s.committed req) hopens hstep
  | run t choice =>
      simp only [Protocol.step] at hstep
      split at hstep
      next => cases hstep
      next old hold =>
        split at hstep
        next => cases hstep
        next hrun =>
          obtain ⟨out, -, hout⟩ := Option.map_eq_some_iff.mp hrun
          cases hout
          exact hentered out.1 t (old.2.1, out.2) (hs old (Table.get_mem hold).1) hstep
  | finish t =>
      simp only [Protocol.step] at hstep
      split at hstep
      next => cases hstep
      next =>
        split at hstep
        · cases hstep
        · cases hstep
          exact hs tx (mem_erase htx).1
  | abort t =>
      cases hstep
      exact hs tx (mem_erase htx).1

/-! ## A transaction that runs alone -/

/-- The statements of one transaction from a phase on, and its end, with the phase it ended in. -/
def ends (p : Protocol S Req Phase Choice Row) : S → Phase → List Choice → Option (S × Phase)
  | s, phase, [] => (p.finish s phase).map fun s' => (s', phase)
  | s, phase, choice :: choices =>
      (p.run s phase choice).bind fun out => p.ends out.1 out.2 choices

/-- A transaction while no other one is open. -/
def alone (p : Protocol S Req Phase Choice Row) (s : S) (req : Req) (choices : List Choice) :
    Option (S × Phase) :=
  p.ends s (p.start s req) choices

/-- The state with a single transaction. -/
def single (committed : S) (phase : Phase) : Interleaved S Phase :=
  ⟨committed, ⟨[(0, phase)], List.nodup_singleton _⟩⟩

theorem enter_single (committed : S) (phase phase' : Phase) :
    p.enter (single committed phase) 0 phase' = some (single committed phase') := by
  have hfree : ∀ tx ∈ (single committed phase).txs.rows, tx.1 ≠ 0 →
      locksConflict (p.locks phase') (p.locks tx.2) = false :=
    fun tx htx hne => absurd (congrArg Prod.fst (List.mem_singleton.mp htx)) hne
  exact if_pos hfree

theorem Reaches.ends {committed committed' : S} {phase phase' : Phase} {choices : List Choice}
    (h : p.ends committed phase choices = some (committed', phase')) :
    p.Reaches (single committed phase) (init committed') := by
  induction choices generalizing committed phase with
  | nil =>
      refine .of_foldlM [.finish 0] ?_
      obtain ⟨_, hfinish, heq⟩ := Option.map_eq_some_iff.mp h
      cases heq
      have hstep : p.step (single committed phase') (.finish 0) = some (init committed') := by
        have hget : (single committed phase').txs.get 0 = some (0, phase') := rfl
        simp only [step, hget]
        rw [show p.finish (single committed phase').committed phase' = some committed' from hfinish]
        rfl
      rw [List.foldlM_cons, hstep]
      rfl
  | cons choice choices ih =>
      obtain ⟨⟨s₁, phase₁⟩, hrun, hrest⟩ := Option.bind_eq_some_iff.mp h
      have hstep : p.step (single committed phase) (.run 0 choice) = some (single s₁ phase₁) := by
        have hget : (single committed phase).txs.get 0 = some (0, phase) := rfl
        simp only [step, hget]
        rw [show p.run (single committed phase).committed phase choice = some (s₁, phase₁) from hrun]
        exact enter_single s₁ phase phase₁
      exact Relation.ReflTransGen.head ⟨.run 0 choice, trivial, hstep⟩ (ih hrest)

/-- A transaction that runs alone is an interleaving. -/
theorem Reaches.alone {committed committed' : S} {req : Req} {phase : Phase}
    {choices : List Choice} (h : p.alone committed req choices = some (committed', phase)) :
    p.Reaches (init committed) (init committed') := by
  have hstep : p.step (init committed) (.begin 0 req) =
      some (single committed (p.start committed req)) := by
    have hfree : ∀ tx ∈ (init committed : Interleaved S Phase).txs.rows, tx.1 ≠ 0 →
        locksConflict (p.locks (p.start committed req)) (p.locks tx.2) = false :=
      List.forall_mem_nil _
    exact if_pos (e := none) hfree
  exact Relation.ReflTransGen.head ⟨.begin 0 req, trivial, hstep⟩ (Reaches.ends h)

end Protocol

end Foundations
