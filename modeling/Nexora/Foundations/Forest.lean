import Mathlib.Logic.Function.Basic
import Mathlib.Data.Nat.Find
import Mathlib.Data.List.Basic

/-!
# Forests given by parent pointers

A partial function `f` gives every element its parent.  `Bounded f n` says that going up from any
element ends within `n` elements, so there is no cycle and the forest has at most `n` levels.
`Below f m c` says that the elements under `c`, with `c` itself, have at most `m` levels.

`Bounded.move` is the rule for hanging an element under another parent: the path up from the
parent must not come through the element, and the path and what hangs below the element must fit
together.  A new element is the case where nothing hangs below it.
-/

namespace Foundations

variable {K : Type*} {f : K → Option K}

/-- The `n`-th element above `x`. -/
def ancestor (f : K → Option K) : Nat → K → Option K
  | 0, x => some x
  | n + 1, x => (ancestor f n x).bind f

@[simp] theorem ancestor_zero (x : K) : ancestor f 0 x = some x := rfl

theorem ancestor_succ (n : Nat) (x : K) : ancestor f (n + 1) x = (ancestor f n x).bind f := rfl

theorem ancestor_add (m n : Nat) (x : K) :
    ancestor f (m + n) x = (ancestor f m x).bind (ancestor f n) := by
  induction n with
  | zero => cases ancestor f m x <;> simp
  | succ n ih =>
      rw [← Nat.add_assoc, ancestor_succ, ih, Option.bind_assoc]
      rfl

theorem ancestor_succ' (n : Nat) (x : K) : ancestor f (n + 1) x = (f x).bind (ancestor f n) := by
  rw [Nat.add_comm, ancestor_add]
  rfl

theorem ancestor_eq_none_of_le {m n : Nat} {x : K} (h : ancestor f m x = none) (hle : m ≤ n) :
    ancestor f n x = none := by
  obtain ⟨d, rfl⟩ := Nat.exists_eq_add_of_le hle
  rw [ancestor_add, h]
  rfl

/-! ## Levels -/

/-- Going up from any element ends within `n` elements. -/
def Bounded (f : K → Option K) (n : Nat) : Prop := ∀ x, ancestor f n x = none

/-- The elements under `c` have at most `m` levels, with that of `c`. -/
def Below (f : K → Option K) (m : Nat) (c : K) : Prop :=
  ∀ i x, ancestor f i x = some c → i < m

/-- No element is above itself. -/
theorem Bounded.acyclic {n i : Nat} (h : Bounded f n) (hi : 0 < i) (x : K) :
    ancestor f i x ≠ some x := by
  intro hcycle
  have hround : ∀ k, ancestor f (i * k) x = some x := by
    intro k
    induction k with
    | zero => rfl
    | succ k ih =>
        rw [Nat.mul_succ, ancestor_add, ih]
        exact hcycle
  have hnone := ancestor_eq_none_of_le (h x) (Nat.le_mul_of_pos_left n hi)
  rw [hround] at hnone
  cases hnone

/-- Nothing hangs below an element that is no one's parent. -/
theorem Below.of_leaf {c : K} (h : ∀ x, f x ≠ some c) : Below f 1 c := by
  intro i x hancestor
  cases i with
  | zero => exact Nat.one_pos
  | succ i =>
      obtain ⟨y, -, hy⟩ := Option.bind_eq_some_iff.mp hancestor
      exact absurd hy (h y)

/-- The levels below an element, counted along its children. -/
def levelsFit (children : K → List K) : Nat → K → Bool
  | 0, _ => false
  | m + 1, c => (children c).all (levelsFit children m)

theorem below_of_levelsFit {children : K → List K} (hchildren : ∀ x c, f x = some c → x ∈ children c)
    {m : Nat} {c : K} (h : levelsFit children m c) : Below f m c := by
  induction m generalizing c with
  | zero => cases h
  | succ m ih =>
      intro i x hancestor
      cases i with
      | zero => exact Nat.succ_pos m
      | succ i =>
          -- The element below `c` on the way up from `x` is one of its children.
          obtain ⟨y, hy, hparent⟩ := Option.bind_eq_some_iff.mp hancestor
          have hfits := List.all_eq_true.mp h y (hchildren y c hparent)
          exact Nat.succ_lt_succ (ih hfits i x hy)

/-! ## Paths -/

/-- The path up from an element, unless it is longer than `n`. -/
def path (f : K → Option K) : Nat → Option K → Option (List K)
  | _, none => some []
  | 0, some _ => none
  | n + 1, some x => (path f n (f x)).map (x :: ·)

@[simp] theorem path_none (n : Nat) : path f n none = some [] := by
  cases n with
  | zero => rfl
  | succ n => rfl

/-- A path ends, and has everything that is above its start. -/
theorem path_eq_some {n : Nat} {p : K} {l : List K} (h : path f n (some p) = some l) :
    ancestor f l.length p = none ∧ ∀ j y, ancestor f j p = some y → y ∈ l := by
  induction n generalizing p l with
  | zero => cases h
  | succ n ih =>
      obtain ⟨rest, hrest, rfl⟩ := Option.map_eq_some_iff.mp h
      cases hparent : f p with
      | none =>
          rw [hparent, path_none] at hrest
          cases hrest
          refine ⟨by simp [ancestor_succ', hparent], fun j y hy => ?_⟩
          cases j with
          | zero =>
              cases hy
              exact List.mem_singleton_self p
          | succ j => simp [ancestor_succ', hparent] at hy
      | some q =>
          rw [hparent] at hrest
          obtain ⟨hend, hmem⟩ := ih hrest
          refine ⟨by rw [List.length_cons, ancestor_succ', hparent]; exact hend, fun j y hy => ?_⟩
          cases j with
          | zero =>
              cases hy
              exact List.mem_cons_self
          | succ j =>
              rw [ancestor_succ', hparent] at hy
              exact List.mem_cons_of_mem p (hmem j y hy)

/-- A way up that ends is a path. -/
theorem exists_path {n : Nat} {x : K} (h : ancestor f n x = none) : ∃ l, path f n (some x) = some l := by
  induction n generalizing x with
  | zero => cases h
  | succ n ih =>
      rw [path]
      cases hparent : f x with
      | none => exact ⟨[x], by rw [path_none, Option.map_some]⟩
      | some y =>
          rw [ancestor_succ', hparent] at h
          obtain ⟨l, hl⟩ := ih h
          exact ⟨x :: l, by rw [hl, Option.map_some]⟩

/-! ## Changes -/

variable [DecidableEq K] {n : Nat} {c : K}

/-- A change at `c` does not matter to a way up that does not come through it. -/
theorem ancestor_update {v : Option K} {x : K} (h : ∀ i < n, ancestor f i x ≠ some c) :
    ancestor (Function.update f c v) n x = ancestor f n x := by
  induction n with
  | zero => rfl
  | succ n ih =>
      rw [ancestor_succ, ancestor_succ, ih fun i hi => h i (Nat.lt_succ_of_lt hi)]
      cases hy : ancestor f n x with
      | none => rfl
      | some y =>
          have hne : y ≠ c := fun heq => h n (Nat.lt_succ_self n) (heq ▸ hy)
          exact Function.update_of_ne hne v f

/-- An element with what hangs below it is taken to the top. -/
theorem Bounded.toTop (h : Bounded f n) (c : K) : Bounded (Function.update f c none) n := by
  intro x
  by_cases hc : ∃ i, i < n ∧ ancestor f i x = some c
  · -- The way up from `x` now ends at `c`.
    obtain ⟨hlt, hancestor⟩ := Nat.find_spec hc
    have hbefore : ∀ i < Nat.find hc, ancestor f i x ≠ some c := fun i hi heq =>
      Nat.find_min hc hi ⟨Nat.lt_trans hi hlt, heq⟩
    refine ancestor_eq_none_of_le ?_ hlt
    rw [ancestor_succ, ancestor_update hbefore, hancestor]
    exact Function.update_self c none f
  · rw [ancestor_update fun i hi heq => hc ⟨i, hi, heq⟩]
    exact h x

/-- An element with what hangs below it is hung under `p`. -/
theorem Bounded.move {m k : Nat} {p : K} (h : Bounded f n) (hend : ancestor f k p = none)
    (havoid : ∀ j, ancestor f j p ≠ some c) (hbelow : Below f m c) (hfits : m + k ≤ n) :
    Bounded (Function.update f c (some p)) n := by
  -- The way up from `p` does not come through `c`, so it is what it was.
  have hup : ancestor (Function.update f c (some p)) k p = none := by
    rw [ancestor_update fun i _ => havoid i]
    exact hend
  intro x
  by_cases hc : ∃ i, i < n ∧ ancestor f i x = some c
  · obtain ⟨hlt, hancestor⟩ := Nat.find_spec hc
    have hbefore : ∀ i < Nat.find hc, ancestor f i x ≠ some c := fun i hi heq =>
      Nat.find_min hc hi ⟨Nat.lt_trans hi hlt, heq⟩
    have hlevel := hbelow _ x hancestor
    refine ancestor_eq_none_of_le (m := Nat.find hc + 1 + k) ?_ (by omega)
    rw [ancestor_add, ancestor_succ, ancestor_update hbefore, hancestor]
    show (Function.update f c (some p) c).bind _ = none
    rw [Function.update_self]
    exact hup
  · rw [ancestor_update fun i hi heq => hc ⟨i, hi, heq⟩]
    exact h x

end Foundations
