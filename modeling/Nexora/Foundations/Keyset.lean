import Mathlib.Data.List.Sort
import Mathlib.Order.Basic

/-!
# Pages behind a key

Rows that are told apart by a key have one list in the order of their keys.  A server that hands out
a list in pages, each with a cursor that stands for the rest of the list, hands out all of it to a
client who follows the cursors to the end (`Follows.exists_of_pages`).
-/

namespace Foundations

/-! ## Rows in order -/

section

variable {α K : Type*} [LinearOrder K] {key : α → K} {rows rows' : List α}

/-- `ORDER BY` the key. -/
def orderBy (key : α → K) (rows : List α) : List α := rows.mergeSort fun a b => key a ≤ key b

theorem orderBy_perm (key : α → K) (rows : List α) : (orderBy key rows).Perm rows :=
  List.mergeSort_perm ..

theorem orderBy_sorted (key : α → K) (rows : List α) :
    (orderBy key rows).Pairwise fun a b => key a ≤ key b := by
  have hsorted := @List.pairwise_mergeSort _ (fun a b => decide (key a ≤ key b))
    (fun a b c hab hbc => by
      simp only [decide_eq_true_eq] at hab hbc ⊢
      exact hab.trans hbc)
    (fun a b => by
      simp only [Bool.or_eq_true, decide_eq_true_eq]
      exact le_total _ _) rows
  exact hsorted.imp fun {a b} h => of_decide_eq_true h

/-- Rows with different keys are in strict order. -/
theorem orderBy_strict (hkeys : (rows.map key).Nodup) :
    (orderBy key rows).Pairwise fun a b => key a < key b := by
  have hne := List.pairwise_map.mp (((orderBy_perm key rows).map key).nodup_iff.mpr hkeys)
  exact ((orderBy_sorted key rows).and hne).imp fun {a b} h => lt_of_le_of_ne h.1 h.2

/-- The same rows in order are the same list. -/
theorem orderBy_eq (hkeys : (rows.map key).Nodup) (hperm : rows'.Perm rows)
    (hsorted : rows'.Pairwise fun a b => key a ≤ key b) : orderBy key rows = rows' := by
  refine List.Perm.eq_of_pairwise (fun a b ha hb hab hba => ?_) (orderBy_sorted key rows) hsorted
    ((orderBy_perm key rows).trans hperm.symm)
  exact List.inj_on_of_nodup_map hkeys ((orderBy_perm key rows).subset ha) (hperm.subset hb)
    (le_antisymm hab hba)

theorem orderBy_filter (hkeys : (rows.map key).Nodup) (p : α → Bool) :
    orderBy key (rows.filter p) = (orderBy key rows).filter p :=
  orderBy_eq (hkeys.sublist (List.filter_sublist.map key)) ((orderBy_perm key rows).filter p)
    ((orderBy_sorted key rows).sublist List.filter_sublist)

/-- What is behind a row is what has a greater key. -/
theorem filter_of_strict {front back : List α} {last : α}
    (h : (front ++ last :: back).Pairwise fun a b => key a < key b) :
    (front ++ last :: back).filter (fun row => key last < key row) = back := by
  obtain ⟨-, hback, hcross⟩ := List.pairwise_append.mp h
  obtain ⟨hlast, -⟩ := List.pairwise_cons.mp hback
  have hfront : front.filter (fun row => key last < key row) = [] := by
    rw [List.filter_eq_nil_iff]
    intro row hrow
    simpa using (hcross row hrow last (List.mem_cons_self ..)).le
  have hrest : back.filter (fun row => key last < key row) = back := by
    rw [List.filter_eq_self]
    intro row hrow
    simpa using hlast row hrow
  rw [List.filter_append, hfront, List.filter_cons_of_neg (by simp), hrest, List.nil_append]

end

/-! ## Following cursors -/

section

variable {α C P ε : Type*} {fetch : Option C → Except ε P} {next : P → Option C}
  {cursor : Option C} {pages pages' : List P}

/-- The pages of a client who asks with the cursor of each page for the next one, until there is no
cursor. -/
inductive Follows (fetch : Option C → Except ε P) (next : P → Option C) :
    Option C → List P → Prop
  | last {cursor : Option C} {page : P} (hfetch : fetch cursor = .ok page)
      (hnext : next page = none) : Follows fetch next cursor [page]
  | more {cursor : Option C} {page : P} {c : C} {pages : List P} (hfetch : fetch cursor = .ok page)
      (hnext : next page = some c) (hpages : Follows fetch next (some c) pages) :
      Follows fetch next cursor (page :: pages)

theorem Follows.unique (h : Follows fetch next cursor pages)
    (h' : Follows fetch next cursor pages') : pages = pages' := by
  induction h generalizing pages' with
  | last hfetch hnext =>
      cases h' with
      | last hfetch' hnext' =>
          rw [hfetch] at hfetch'
          cases hfetch'
          rfl
      | more hfetch' hnext' hpages' =>
          rw [hfetch] at hfetch'
          cases hfetch'
          rw [hnext] at hnext'
          cases hnext'
  | more hfetch hnext hpages ih =>
      cases h' with
      | last hfetch' hnext' =>
          rw [hfetch] at hfetch'
          cases hfetch'
          rw [hnext] at hnext'
          cases hnext'
      | more hfetch' hnext' hpages' =>
          rw [hfetch] at hfetch'
          cases hfetch'
          rw [hnext] at hnext'
          cases hnext'
          rw [ih hpages']

/-- A cursor that is handed out with a part of a list stands for the rest of it, so the pages are
the list. -/
theorem Follows.exists_of_pages {items : P → List α} {limit : ℕ} (hlimit : 1 ≤ limit)
    {At : Option C → List α → Prop}
    (hpage : ∀ cursor rest, At cursor rest → ∃ page, fetch cursor = .ok page ∧
      items page = rest.take limit ∧
        (rest.length ≤ limit ∧ next page = none ∨
          limit < rest.length ∧ ∃ c, next page = some c ∧ At (some c) (rest.drop limit)))
    {rest : List α} (h : At cursor rest) :
    ∃ pages, Follows fetch next cursor pages ∧ pages.flatMap items = rest := by
  induction hn : rest.length using Nat.strong_induction_on generalizing cursor rest with
  | _ n ih =>
      obtain ⟨page, hfetch, hitems, hnext⟩ := hpage cursor rest h
      rcases hnext with ⟨hshort, hnone⟩ | ⟨hlong, c, hsome, hrest⟩
      · refine ⟨[page], .last hfetch hnone, ?_⟩
        rw [List.flatMap_singleton, hitems, List.take_of_length_le hshort]
      · have hlt : (rest.drop limit).length < n := by
          rw [List.length_drop]
          omega
        obtain ⟨pages, hpages, hrows⟩ := ih _ hlt hrest rfl
        refine ⟨page :: pages, .more hfetch hsome hpages, ?_⟩
        rw [List.flatMap_cons, hitems, hrows, List.take_append_drop]

end

end Foundations
