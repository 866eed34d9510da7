import Mathlib.Algebra.Ring.Int.Defs
import Mathlib.Algebra.Order.Group.Int
import Mathlib.Algebra.BigOperators.Group.List.Basic
import Mathlib.Algebra.Order.BigOperators.Group.List
import Mathlib.Data.List.Basic

/-!
# Amounts by key

A document names keys with amounts, and it may name a key more than once.  `amountFor` is what
one document says of a key, and `amountIn` what the documents of one owner say of it.  `lastFor` is
what is left of a document that is read into a dictionary, where the last amount of a key counts.
-/

namespace Foundations

variable {K : Type*} [DecidableEq K]

/-- What is said of a key. -/
def amountFor (items : List (K × Int)) (id : K) : Int :=
  ((items.filter (·.1 = id)).map (·.2)).sum

/-- What the documents of an owner say of a key. -/
def amountIn (docs : List (K × List (K × Int))) (owner id : K) : Int :=
  (docs.map fun doc => if doc.1 = owner then amountFor doc.2 id else 0).sum

variable {id : K} {items : List (K × Int)}

theorem amountFor_pos (hpos : ∀ a ∈ items, 0 < a.2) (hid : id ∈ items.map (·.1)) :
    0 < amountFor items id := by
  obtain ⟨a, ha, rfl⟩ := List.mem_map.mp hid
  refine List.sum_pos _ (fun x hx => ?_) ?_
  · obtain ⟨a', ha', rfl⟩ := List.mem_map.mp hx
    exact hpos a' (List.mem_of_mem_filter ha')
  · have hmem : a ∈ items.filter (·.1 = a.1) := List.mem_filter.mpr ⟨ha, by simp⟩
    intro hnil
    rw [List.map_eq_nil_iff.mp hnil] at hmem
    cases hmem

theorem amountFor_eq_zero (hid : id ∉ items.map (·.1)) : amountFor items id = 0 := by
  have hnil : items.filter (·.1 = id) = [] := by
    refine List.filter_eq_nil_iff.mpr fun a ha heq => hid ?_
    exact List.mem_map.mpr ⟨a, ha, of_decide_eq_true heq⟩
  rw [amountFor, hnil]
  rfl

theorem amountFor_cons (a : K × Int) (items : List (K × Int)) (id : K) :
    amountFor (a :: items) id = (if a.1 = id then a.2 else 0) + amountFor items id := by
  by_cases h : a.1 = id
  · rw [amountFor, List.filter_cons_of_pos (by simpa using h), if_pos h]
    rfl
  · rw [amountFor, List.filter_cons_of_neg (by simpa using h), if_neg h, zero_add]
    rfl

/-- A key that is named once. -/
theorem amountFor_of_nodup {a : K × Int} (hnodup : (items.map (·.1)).Nodup) (ha : a ∈ items) :
    amountFor items a.1 = a.2 := by
  induction items with
  | nil => cases ha
  | cons head rest ih =>
      rw [List.map_cons, List.nodup_cons] at hnodup
      rw [amountFor_cons]
      rcases List.mem_cons.mp ha with rfl | ha
      · rw [if_pos rfl, amountFor_eq_zero hnodup.1, add_zero]
      · have hne : head.1 ≠ a.1 := fun heq => hnodup.1 (heq ▸ List.mem_map_of_mem ha)
        rw [if_neg hne, zero_add]
        exact ih hnodup.2 ha

/-- A loop says nothing of a key that is none of its lines'. -/
theorem amountFor_filterMap_eq_zero {L : Type*} {key : L → K} {take : L → Option Int}
    {lines : List L} (hid : id ∉ lines.map key) :
    amountFor (lines.filterMap fun l => (take l).map (key l, ·)) id = 0 := by
  refine amountFor_eq_zero fun hmem => hid ?_
  obtain ⟨a, ha, rfl⟩ := List.mem_map.mp hmem
  obtain ⟨l, hl, hsome⟩ := List.mem_filterMap.mp ha
  obtain ⟨_, -, rfl⟩ := Option.map_eq_some_iff.mp hsome
  exact List.mem_map_of_mem hl

/-- What a loop says that goes once over lines with different keys. -/
theorem amountFor_filterMap {L : Type*} {key : L → K} {take : L → Option Int} {lines : List L}
    (hnodup : (lines.map key).Nodup) {line : L} (hline : line ∈ lines) :
    amountFor (lines.filterMap fun l => (take l).map (key l, ·)) (key line) =
      (take line).getD 0 := by
  induction lines with
  | nil => cases hline
  | cons head rest ih =>
      rw [List.map_cons, List.nodup_cons] at hnodup
      rcases List.mem_cons.mp hline with rfl | hline
      · cases htake : take line with
        | none =>
            rw [List.filterMap_cons_none (by rw [htake]; rfl)]
            exact amountFor_filterMap_eq_zero hnodup.1
        | some amount =>
            rw [List.filterMap_cons_some (by rw [htake]; rfl), amountFor_cons, if_pos rfl,
              amountFor_filterMap_eq_zero hnodup.1, add_zero]
            rfl
      · have hne : key head ≠ key line := fun heq => hnodup.1 (heq ▸ List.mem_map_of_mem hline)
        cases htake : take head with
        | none =>
            rw [List.filterMap_cons_none (by rw [htake]; rfl)]
            exact ih hnodup.2 hline
        | some amount =>
            rw [List.filterMap_cons_some (by rw [htake]; rfl), amountFor_cons, if_neg hne, zero_add]
            exact ih hnodup.2 hline

/-! ## The last amount of a key -/

/-- The last amount that is named with a key. -/
def lastFor (items : List (K × Int)) (id : K) : Int :=
  ((items.reverse.find? (·.1 = id)).map (·.2)).getD 0

theorem lastFor_cons (a : K × Int) (items : List (K × Int)) (id : K) :
    lastFor (a :: items) id =
      if id ∈ items.map (·.1) then lastFor items id else if a.1 = id then a.2 else 0 := by
  unfold lastFor
  rw [List.reverse_cons, List.find?_append]
  split_ifs with hid ha
  · obtain ⟨b, hb, rfl⟩ := List.mem_map.mp hid
    have hsome : (items.reverse.find? (·.1 = b.1)).isSome :=
      List.find?_isSome.mpr ⟨b, List.mem_reverse.mpr hb, by simp⟩
    rw [Option.or_of_isSome hsome]
  all_goals
    have hnone : items.reverse.find? (·.1 = id) = none := by
      refine List.find?_eq_none.mpr fun b hb heq => hid ?_
      exact List.mem_map.mpr ⟨b, List.mem_reverse.mp hb, of_decide_eq_true heq⟩
    rw [hnone]
    simp [ha]

theorem lastFor_eq_zero (hid : id ∉ items.map (·.1)) : lastFor items id = 0 := by
  cases items with
  | nil => rfl
  | cons a items =>
      rw [List.map_cons, List.mem_cons, not_or] at hid
      rw [lastFor_cons, if_neg hid.2, if_neg (Ne.symm hid.1)]

theorem lastFor_le_amountFor (hpos : ∀ a ∈ items, 0 < a.2) : lastFor items id ≤ amountFor items id := by
  induction items with
  | nil => exact le_rfl
  | cons a items ih =>
      obtain ⟨ha, hitems⟩ := List.forall_mem_cons.mp hpos
      have hle := ih hitems
      rw [lastFor_cons, amountFor_cons]
      split_ifs with hid heq heq
      · omega
      · omega
      · rw [amountFor_eq_zero hid]
        omega
      · rw [amountFor_eq_zero hid]
        rfl

/-- The last amounts are all there is exactly when no key is named twice. -/
theorem lastFor_eq_amountFor_iff (hpos : ∀ a ∈ items, 0 < a.2) :
    (∀ id ∈ items.map (·.1), lastFor items id = amountFor items id) ↔ (items.map (·.1)).Nodup := by
  induction items with
  | nil => exact iff_of_true (List.forall_mem_nil _) List.nodup_nil
  | cons a items ih =>
      obtain ⟨ha, hitems⟩ := List.forall_mem_cons.mp hpos
      rw [List.map_cons, List.forall_mem_cons, List.nodup_cons, ← ih hitems, lastFor_cons,
        amountFor_cons, if_pos rfl]
      -- A key that comes back later has lost its first amount.
      have hlost : a.1 ∈ items.map (·.1) → lastFor items a.1 ≠ a.2 + amountFor items a.1 := by
        intro _
        have hle : lastFor items a.1 ≤ amountFor items a.1 := lastFor_le_amountFor hitems
        omega
      constructor
      · rintro ⟨hhead, hrest⟩
        have hnot : a.1 ∉ items.map (·.1) := by
          intro hmem
          rw [if_pos hmem] at hhead
          exact hlost hmem hhead
        refine ⟨hnot, fun id hid => ?_⟩
        have hne : a.1 ≠ id := fun heq => hnot (heq ▸ hid)
        have heq := hrest id hid
        rwa [lastFor_cons, amountFor_cons, if_pos hid, if_neg hne, zero_add] at heq
      · rintro ⟨hnot, hrest⟩
        refine ⟨?_, fun id hid => ?_⟩
        · rw [if_neg hnot, amountFor_eq_zero hnot, add_zero]
        · have hne : a.1 ≠ id := fun heq => hnot (heq ▸ hid)
          rw [lastFor_cons, amountFor_cons, if_pos hid, if_neg hne, zero_add]
          exact hrest id hid

/-! ## Documents -/

variable {docs docs' : List (K × List (K × Int))}

theorem amountIn_append (owner : K) (items : List (K × Int)) (owner' id : K) :
    amountIn (docs ++ [(owner, items)]) owner' id =
      amountIn docs owner' id + if owner' = owner then amountFor items id else 0 := by
  rw [amountIn, List.map_append, List.sum_append, List.map_singleton, List.sum_singleton,
    amountIn]
  simp only [eq_comm]

theorem amountIn_perm (h : docs'.Perm docs) (owner id : K) :
    amountIn docs' owner id = amountIn docs owner id :=
  (h.map _).sum_eq

/-! ## Classes -/

/-- Rows that are each in one of some classes are added up class by class. -/
theorem sum_classes {A B : Type*} {classes : List B} {holds : B → A → Bool} {rows : List A}
    (f : A → Int) (hone : ∀ row ∈ rows, classes.countP (holds · row) = 1) :
    (classes.map fun b => ((rows.filter (holds b)).map f).sum).sum = (rows.map f).sum := by
  induction rows with
  | nil => simp
  | cons row rows ih =>
      obtain ⟨hrow, hrows⟩ := List.forall_mem_cons.mp hone
      have hsplit : ∀ b, (((row :: rows).filter (holds b)).map f).sum =
          (if holds b row then f row else 0) + ((rows.filter (holds b)).map f).sum := by
        intro b
        rw [List.filter_cons]
        split
        · rw [List.map_cons, List.sum_cons]
        · rw [zero_add]
      have honly : (classes.map fun b => if holds b row then f row else 0).sum = f row := by
        rw [List.sum_map_ite, List.map_const', List.sum_replicate, List.map_const', List.sum_replicate,
          ← List.countP_eq_length_filter]
        simp [hrow]
      simp only [hsplit, List.sum_map_add, honly, ih hrows, List.map_cons, List.sum_cons]

end Foundations
