import Mathlib.Data.List.Nodup
import Mathlib.Algebra.BigOperators.Group.List.Basic
import Mathlib.Tactic.Abel

/-!
# Tables with a primary key

A table is a list of rows no two of which have the same key.  `insert` and
`replace` refuse a change that would give two rows one key, which is what a
primary key does, so a table whose keys clash cannot be built.

Everything that is computed from a table row by row, such as the rows that match
a condition or a sum over them, is followed through a change by `get_split`: the
row with a key splits the table in two, and `replace` and `erase` act between
the halves.
-/

namespace Foundations

variable {R K : Type*} [DecidableEq K]

/-- Rows with pairwise different keys. -/
structure Table (key : R → K) where
  rows : List R
  nodup : (rows.map key).Nodup

namespace Table

variable {key : R → K}

/-- The table without rows. -/
def empty (key : R → K) : Table key := ⟨[], List.nodup_nil⟩

/-- The row with a key. -/
def get (t : Table key) (k : K) : Option R := t.rows.find? (key · = k)

/-- `INSERT`, refused when the key is taken. -/
def insert (t : Table key) (r : R) : Option (Table key) :=
  if h : ((t.rows ++ [r]).map key).Nodup then some ⟨t.rows ++ [r], h⟩ else none

/-- `UPDATE` of the row with key `k` to `new`, refused when another row has the
key of `new`. -/
def replace (t : Table key) (k : K) (new : R) : Option (Table key) :=
  if h : ((t.rows.map fun r => if key r = k then new else r).map key).Nodup then
    some ⟨t.rows.map fun r => if key r = k then new else r, h⟩
  else none

/-- `DELETE` of the row with key `k`. -/
def erase (t : Table key) (k : K) : Table key :=
  ⟨t.rows.filter (key · ≠ k), t.nodup.sublist (List.filter_sublist.map key)⟩

/-- `DELETE` of the rows that do not match. -/
def filter (t : Table key) (p : R → Bool) : Table key :=
  ⟨t.rows.filter p, t.nodup.sublist (List.filter_sublist.map key)⟩

/-- `INSERT ... ON CONFLICT DO UPDATE`. -/
def put (t : Table key) (r : R) : Table key :=
  ⟨(t.erase (key r)).rows ++ [r], by
    rw [List.map_append, List.map_singleton, ← List.concat_eq_append, List.nodup_concat]
    refine ⟨?_, (t.erase (key r)).nodup⟩
    rw [List.mem_map]
    rintro ⟨r', hr', heq⟩
    have hne := (List.mem_filter.mp hr').2
    simp [heq] at hne⟩

/-- `UPDATE` of columns that are not the key. -/
def modify (t : Table key) (f : R → R) (hf : ∀ r, key (f r) = key r) : Table key :=
  ⟨t.rows.map f, by
    have hkeys : key ∘ f = key := funext hf
    rw [List.map_map, hkeys]
    exact t.nodup⟩

theorem get_modify (t : Table key) (f : R → R) (hf : ∀ r, key (f r) = key r) (k : K) :
    (t.modify f hf).get k = (t.get k).map f := by
  have hkeys : (fun r => decide (key r = k)) ∘ f = fun r => decide (key r = k) := by
    funext r
    simp [hf]
  rw [get, modify, List.find?_map, hkeys, get]

/-- `UPDATE` of the row with key `k`, of columns that are not the key. -/
def modifyAt (t : Table key) (k : K) (f : R → R) (hf : ∀ r, key (f r) = key r) : Table key :=
  t.modify (fun r => if key r = k then f r else r) fun r => by
    split
    · exact hf r
    · rfl

/-- What `get` finds is in the table and has the key. -/
theorem get_mem {t : Table key} {k : K} {r : R} (h : t.get k = some r) : r ∈ t.rows ∧ key r = k := by
  have hkey := List.find?_some h
  exact ⟨List.mem_of_find?_eq_some h, of_decide_eq_true hkey⟩

theorem get_eq_some {t : Table key} {k : K} {r : R} :
    t.get k = some r ↔ r ∈ t.rows ∧ key r = k := by
  refine ⟨get_mem, fun ⟨hr, hk⟩ => ?_⟩
  have hsome : (t.get k).isSome := List.find?_isSome.mpr ⟨r, hr, by simpa using hk⟩
  obtain ⟨found, hfound⟩ := Option.isSome_iff_exists.mp hsome
  -- Two rows with one key are the same row.
  obtain ⟨hmem, hfk⟩ := get_mem hfound
  have hsame := List.inj_on_of_nodup_map t.nodup hmem hr (hfk.trans hk.symm)
  rw [hfound, hsame]

theorem get_self {t : Table key} {k : K} {r : R} (h : t.get k = some r) :
    t.get (key r) = some r := by
  rwa [(get_mem h).2]

omit [DecidableEq K] in
theorem eq_of_mem {t : Table key} {r r' : R} (hr : r ∈ t.rows) (hr' : r' ∈ t.rows)
    (h : key r = key r') : r = r' :=
  List.inj_on_of_nodup_map t.nodup hr hr' h

omit [DecidableEq K] in
/-- At most one row, when all that are meant have one key. -/
theorem length_filter_le_one {t : Table key} {p : R → Bool}
    (h : ∀ r ∈ t.rows, ∀ r' ∈ t.rows, p r = true → p r' = true → key r = key r') :
    (t.rows.filter p).length ≤ 1 := by
  have hnodup : ((t.rows.filter p).map key).Nodup := t.nodup.sublist (List.filter_sublist.map key)
  have hsame : ∀ r ∈ t.rows.filter p, ∀ r' ∈ t.rows.filter p, key r = key r' := by
    intro r hr r' hr'
    obtain ⟨hmem, hp⟩ := List.mem_filter.mp hr
    obtain ⟨hmem', hp'⟩ := List.mem_filter.mp hr'
    exact h r hmem r' hmem' hp hp'
  generalize t.rows.filter p = found at hnodup hsame
  match found with
  | [] => exact Nat.zero_le 1
  | [_] => exact Nat.le_refl 1
  | r :: r' :: rest =>
      have hkey := hsame r (by simp) r' (by simp)
      simp [hkey] at hnodup

/-- What is found in a table is found in a longer one. -/
theorem get_of_append {t t' : Table key} {k : K} {r : R} {more : List R} (h : t.get k = some r)
    (hrows : t'.rows = t.rows ++ more) : t'.get k = some r := by
  obtain ⟨hmem, hkey⟩ := get_mem h
  exact get_eq_some.mpr ⟨by simp [hrows, hmem], hkey⟩

theorem get_eq_none {t : Table key} {k : K} : t.get k = none ↔ ∀ r ∈ t.rows, key r ≠ k := by
  simp [get]

/-- The row with a key, and the rows on both sides of it. -/
theorem get_split {t : Table key} {k : K} {r : R} (h : t.get k = some r) :
    ∃ l₁ l₂, t.rows = l₁ ++ r :: l₂ ∧ ∀ r' ∈ l₁ ++ l₂, key r' ≠ k := by
  obtain ⟨hr, rfl⟩ := get_eq_some.mp h
  obtain ⟨l₁, l₂, hrows⟩ := List.append_of_mem hr
  refine ⟨l₁, l₂, hrows, ?_⟩
  have hnodup := t.nodup
  rw [hrows, List.map_append, List.map_cons] at hnodup
  have hnot := (List.nodup_middle.mp hnodup).notMem
  rw [← List.map_append] at hnot
  exact fun r' hr' heq => hnot (heq ▸ List.mem_map_of_mem hr')

theorem mem_put {t : Table key} {r r' : R} :
    r' ∈ (t.put r).rows ↔ r' ∈ t.rows ∧ key r' ≠ key r ∨ r' = r := by
  show r' ∈ t.rows.filter (key · ≠ key r) ++ [r] ↔ _
  rw [List.mem_append, List.mem_filter, List.mem_singleton]
  simp

theorem get_put (t : Table key) (r : R) (k : K) :
    (t.put r).get k = if k = key r then some r else t.get k := by
  split_ifs with hk
  · exact get_eq_some.mpr ⟨mem_put.mpr (.inr rfl), hk.symm⟩
  · ext r'
    rw [get_eq_some, get_eq_some, mem_put]
    constructor
    · rintro ⟨⟨hr', -⟩ | rfl, rfl⟩
      · exact ⟨hr', rfl⟩
      · exact absurd rfl hk
    · rintro ⟨hr', rfl⟩
      exact ⟨.inl ⟨hr', hk⟩, rfl⟩

omit [DecidableEq K] in
theorem mem_filter {t : Table key} {p : R → Bool} {r : R} :
    r ∈ (t.filter p).rows ↔ r ∈ t.rows ∧ p r = true := List.mem_filter

theorem get_filter (t : Table key) (p : R → Bool) (k : K) :
    (t.filter p).get k = (t.get k).filter p := by
  ext r
  rw [Option.filter_eq_some_iff, get_eq_some, get_eq_some, mem_filter]
  exact and_right_comm

theorem mem_erase {t : Table key} {k : K} {r : R} :
    r ∈ (t.erase k).rows ↔ r ∈ t.rows ∧ key r ≠ k := by
  show r ∈ t.rows.filter (key · ≠ k) ↔ _
  rw [List.mem_filter, decide_eq_true_eq]

theorem get_erase (t : Table key) (k k' : K) :
    (t.erase k).get k' = if k' = k then none else t.get k' := by
  split_ifs with hk
  · refine get_eq_none.mpr fun r hr heq => ?_
    exact (mem_erase.mp hr).2 (heq.trans hk)
  · ext r
    rw [get_eq_some, get_eq_some, mem_erase]
    exact ⟨fun h => ⟨h.1.1, h.2⟩, fun h => ⟨⟨h.1, h.2 ▸ hk⟩, h.2⟩⟩

/-- Rows of one table over those of another. -/
def putAll (t : Table key) (rows : List R) : Table key := rows.foldl put t

theorem get_putAll {rows : List R} (hrows : (rows.map key).Nodup) (t : Table key) (k : K) :
    (t.putAll rows).get k = (rows.find? (key · = k)).or (t.get k) := by
  induction rows generalizing t with
  | nil => rfl
  | cons r rows ih =>
      rw [List.map_cons, List.nodup_cons] at hrows
      show ((t.put r).putAll rows).get k = _
      rw [ih hrows.2, get_put]
      by_cases hk : k = key r
      · have hnone : rows.find? (key · = k) = none := by
          refine List.find?_eq_none.mpr fun r' hr' => ?_
          rw [decide_eq_true_eq, hk]
          exact fun heq => hrows.1 (heq ▸ List.mem_map_of_mem hr')
        rw [hnone, if_pos hk, List.find?_cons_of_pos (by simpa using hk.symm)]
        rfl
      · have hk' : key r ≠ k := fun heq => hk heq.symm
        rw [if_neg hk, List.find?_cons_of_neg (by simpa using hk')]

theorem mem_putAll {t : Table key} {rows : List R} {r : R} (h : r ∈ (t.putAll rows).rows) :
    r ∈ rows ∨ r ∈ t.rows := by
  induction rows generalizing t with
  | nil => exact .inr h
  | cons r' rows ih =>
      rcases ih h with hmem | hmem
      · exact .inl (List.mem_cons_of_mem _ hmem)
      · rcases mem_put.mp hmem with ⟨hmem, -⟩ | rfl
        · exact .inr hmem
        · exact .inl List.mem_cons_self

/-- The keys of both tables. -/
theorem mem_keys_putAll {t : Table key} {rows : List R} {k : K} :
    k ∈ (t.putAll rows).rows.map key ↔ k ∈ rows.map key ∨ k ∈ t.rows.map key := by
  have hput : ∀ (t : Table key) (r : R),
      k ∈ (t.put r).rows.map key ↔ k = key r ∨ k ∈ t.rows.map key := by
    intro t r
    simp only [List.mem_map, mem_put]
    constructor
    · rintro ⟨r', ⟨hr', -⟩ | rfl, rfl⟩
      · exact .inr ⟨r', hr', rfl⟩
      · exact .inl rfl
    · rintro (rfl | ⟨r', hr', rfl⟩)
      · exact ⟨r, .inr rfl, rfl⟩
      · by_cases hkey : key r' = key r
        · exact ⟨r, .inr rfl, hkey.symm⟩
        · exact ⟨r', .inl ⟨hr', hkey⟩, rfl⟩
  induction rows generalizing t with
  | nil =>
      rw [List.map_nil]
      exact ⟨.inr, fun h => h.resolve_left List.not_mem_nil⟩
  | cons r rows ih =>
      refine (ih (t := t.put r)).trans ?_
      rw [hput, List.map_cons, List.mem_cons, ← or_assoc, or_comm (a := k ∈ rows.map key)]

theorem insert_eq_some {t t' : Table key} {r : R} (h : t.insert r = some t') :
    t'.rows = t.rows ++ [r] ∧ t.get (key r) = none := by
  unfold insert at h
  split at h
  next hnodup =>
    cases h
    rw [List.map_append, List.map_singleton] at hnodup
    have hnot : key r ∉ t.rows.map key := by
      rw [← List.concat_eq_append] at hnodup
      exact ((List.nodup_concat _ _).mp hnodup).1
    exact ⟨rfl, get_eq_none.mpr fun r' hr' heq => hnot (heq ▸ List.mem_map_of_mem hr')⟩
  next => cases h

/-- A row whose key is free goes in. -/
theorem insert_of_fresh {t : Table key} {r : R} (h : t.get (key r) = none) :
    ∃ t', t.insert r = some t' := by
  have hnodup : ((t.rows ++ [r]).map key).Nodup := by
    rw [List.map_append, List.map_singleton, ← List.concat_eq_append, List.nodup_concat]
    refine ⟨fun hmem => ?_, t.nodup⟩
    obtain ⟨r', hr', heq⟩ := List.mem_map.mp hmem
    exact get_eq_none.mp h r' hr' heq
  exact ⟨_, dif_pos hnodup⟩

/-- A row that keeps its key is replaced. -/
theorem replace_of_key {t : Table key} {k : K} {new : R} (h : key new = k) :
    ∃ t', t.replace k new = some t' := by
  have hkeys : (t.rows.map fun r => if key r = k then new else r).map key = t.rows.map key := by
    rw [List.map_map]
    refine List.map_congr_left fun r _ => ?_
    simp only [Function.comp_apply]
    split
    next hr => rw [h, hr]
    next => rfl
  exact ⟨_, dif_pos (hkeys ▸ t.nodup)⟩

theorem get_insert {t t' : Table key} {r : R} (h : t.insert r = some t') (k : K) :
    t'.get k = if k = key r then some r else t.get k := by
  obtain ⟨hrows, hnone⟩ := insert_eq_some h
  split_ifs with hk
  · exact get_eq_some.mpr ⟨by simp [hrows], hk.symm⟩
  · ext r'
    rw [get_eq_some, get_eq_some, hrows, List.mem_append, List.mem_singleton]
    constructor
    · rintro ⟨hr' | rfl, rfl⟩
      · exact ⟨hr', rfl⟩
      · exact absurd rfl hk
    · rintro ⟨hr', rfl⟩
      exact ⟨.inl hr', rfl⟩

private theorem map_ite_of_ne {k : K} {f : R → R} {l : List R} (h : ∀ r ∈ l, key r ≠ k) :
    (l.map fun r => if key r = k then f r else r) = l := by
  conv_rhs => rw [← List.map_id l]
  exact List.map_congr_left fun r hr => if_neg (h r hr)

theorem get_modifyAt (t : Table key) (k : K) (f : R → R) (hf : ∀ r, key (f r) = key r) (k' : K) :
    (t.modifyAt k f hf).get k' = if k' = k then (t.get k').map f else t.get k' := by
  rw [modifyAt, get_modify]
  cases hget : t.get k' with
  | none => simp
  | some r =>
      have hkey := (get_mem hget).2
      simp only [Option.map_some, hkey]
      split
      · rfl
      · rfl

/-- A change of the row with a key leaves the others as they are. -/
theorem map_at {t : Table key} {k : K} {r : R} (hget : t.get k = some r) (f : R → R) :
    ∃ l₁ l₂, t.rows = l₁ ++ r :: l₂ ∧
      (t.rows.map fun r => if key r = k then f r else r) = l₁ ++ f r :: l₂ := by
  obtain ⟨l₁, l₂, hrows, hne⟩ := get_split hget
  refine ⟨l₁, l₂, hrows, ?_⟩
  rw [hrows, List.map_append, List.map_cons, if_pos (get_mem hget).2,
    map_ite_of_ne fun r' hr' => hne r' (List.mem_append_left _ hr'),
    map_ite_of_ne fun r' hr' => hne r' (List.mem_append_right _ hr')]

theorem replace_rows {t t' : Table key} {k : K} {new : R} (h : t.replace k new = some t') :
    t'.rows = t.rows.map fun r => if key r = k then new else r := by
  unfold replace at h
  split at h
  next =>
    cases h
    rfl
  next => cases h

/-- An update acts on the row with the key and on no other. -/
theorem replace_eq_some {t t' : Table key} {k : K} {r new : R} (hget : t.get k = some r)
    (h : t.replace k new = some t') :
    ∃ l₁ l₂, t.rows = l₁ ++ r :: l₂ ∧ t'.rows = l₁ ++ new :: l₂ := by
  rw [replace_rows h]
  exact map_at hget fun _ => new

theorem mem_replace {t t' : Table key} {k : K} {r new r' : R} (hget : t.get k = some r)
    (h : t.replace k new = some t') : r' ∈ t'.rows ↔ r' ∈ t.rows ∧ key r' ≠ k ∨ r' = new := by
  rw [replace_rows h, List.mem_map]
  constructor
  · rintro ⟨r₀, hr₀, rfl⟩
    by_cases hk : key r₀ = k
    · exact .inr (if_pos hk)
    · rw [if_neg hk]
      exact .inl ⟨hr₀, hk⟩
  · rintro (⟨hr', hk⟩ | rfl)
    · exact ⟨r', hr', if_neg hk⟩
    · exact ⟨r, (get_mem hget).1, if_pos (get_mem hget).2⟩

theorem get_replace {t t' : Table key} {k : K} {old new : R} (hget : t.get k = some old)
    (hkey : key new = k) (h : t.replace k new = some t') (k' : K) :
    t'.get k' = if k' = k then some new else t.get k' := by
  split_ifs with hk
  · exact get_eq_some.mpr ⟨(mem_replace hget h).mpr (.inr rfl), hkey.trans hk.symm⟩
  · ext r'
    rw [get_eq_some, get_eq_some, mem_replace hget h]
    constructor
    · rintro ⟨⟨hr', -⟩ | rfl, rfl⟩
      · exact ⟨hr', rfl⟩
      · exact absurd hkey hk
    · rintro ⟨hr', rfl⟩
      exact ⟨.inl ⟨hr', hk⟩, rfl⟩

/-- Rows with other keys are as they were. -/
theorem get_replace_other {t t' : Table key} {k k' : K} {new : R}
    (h : t.replace k new = some t') (hkey : key new = k) (hne : k' ≠ k) :
    t'.get k' = t.get k' := by
  ext r
  rw [get_eq_some, get_eq_some, replace_rows h, List.mem_map]
  constructor
  · rintro ⟨⟨r₀, hr₀, rfl⟩, hr⟩
    split_ifs at hr ⊢ with hk
    · exact absurd (hr.symm.trans hkey) hne
    · exact ⟨hr₀, hr⟩
  · rintro ⟨hr, rfl⟩
    exact ⟨⟨r, hr, if_neg hne⟩, rfl⟩

/-- A write to a row that is not there. -/
theorem replace_of_none {t : Table key} {k : K} {new : R} (hget : t.get k = none) :
    t.replace k new = some t := by
  have hrows : (t.rows.map fun r => if key r = k then new else r) = t.rows :=
    (List.map_congr_left fun r hr => if_neg (get_eq_none.mp hget r hr)).trans (List.map_id _)
  unfold replace
  rw [dif_pos (by rw [hrows]; exact t.nodup)]
  simp only [hrows]

/-- Writing a row as it is. -/
theorem replace_self {t : Table key} {r : R} (hget : t.get (key r) = some r) :
    t.replace (key r) r = some t := by
  have hrows : (t.rows.map fun r' => if key r' = key r then r else r') = t.rows := by
    refine (List.map_congr_left fun r' hr' => ?_).trans (List.map_id _)
    split_ifs with hk
    · exact eq_of_mem (get_mem hget).1 hr' hk.symm
    · rfl
  unfold replace
  rw [dif_pos (by rw [hrows]; exact t.nodup)]
  simp only [hrows]

/-- What `f` makes of the rows, after a write. -/
theorem map_get_replace {X : Type*} {t t' : Table key} {k : K} {old new : R} (f : R → X)
    (hget : t.get k = some old) (h : t.replace (key old) new = some t') (hkey : key new = key old)
    (k' : K) : (t'.get k').map f = if k' = key old then some (f new) else (t.get k').map f := by
  rw [get_replace (get_self hget) hkey h k', apply_ite (Option.map f)]
  rfl

theorem map_get_insert {X : Type*} {t t' : Table key} {r : R} (f : R → X)
    (h : t.insert r = some t') (k : K) :
    (t'.get k).map f = if k = key r then some (f r) else (t.get k).map f := by
  rw [get_insert h k, apply_ite (Option.map f)]
  rfl

/-- A row that is written with the same image. -/
theorem map_get_same {X : Type*} {t t' : Table key} {k : K} {old new : R} {f : R → X}
    (hget : t.get k = some old) (h : t.replace (key old) new = some t') (hkey : key new = key old)
    (hf : f new = f old) (k' : K) : (t'.get k').map f = (t.get k').map f := by
  rw [map_get_replace f hget h hkey]
  split_ifs with hk
  · rw [hk, get_self hget, hf]
    rfl
  · rfl

/-- A row outlives a write of another. -/
theorem get_replace_of_ne {t t' : Table key} {k k' : K} {old new other : R}
    (hget : t.get k = some old) (h : t.replace (key old) new = some t') (hkey : key new = key old)
    (hother : t.get k' = some other) (hne : other ≠ old) : t'.get k' = some other := by
  rw [get_replace (get_self hget) hkey h k', if_neg]
  · exact hother
  · rintro rfl
    rw [get_self hget] at hother
    exact hne (Option.some.inj hother).symm

theorem mem_map_iff {X : Type*} {t : Table key} {f : R → X} {k : K} {x : X} :
    (k, x) ∈ t.rows.map (fun r => (key r, f r)) ↔ (t.get k).map f = some x := by
  simp only [List.mem_map, Prod.mk.injEq, Option.map_eq_some_iff]
  constructor
  · rintro ⟨r, hr, rfl, rfl⟩
    exact ⟨r, get_eq_some.mpr ⟨hr, rfl⟩, rfl⟩
  · rintro ⟨r, hget, rfl⟩
    exact ⟨r, (get_mem hget).1, (get_mem hget).2, rfl⟩

/-- Two tables with the same image under every key. -/
theorem map_perm {X : Type*} {t t' : Table key} {f : R → X}
    (h : ∀ k, (t'.get k).map f = (t.get k).map f) : (t'.rows.map f).Perm (t.rows.map f) := by
  have hnodup : ∀ t : Table key, (t.rows.map fun r => (key r, f r)).Nodup := by
    intro t
    refine List.Nodup.of_map Prod.fst ?_
    rw [List.map_map]
    exact t.nodup
  have hperm : (t'.rows.map fun r => (key r, f r)).Perm (t.rows.map fun r => (key r, f r)) := by
    refine (List.perm_ext_iff_of_nodup (hnodup t') (hnodup t)).mpr fun ⟨k, x⟩ => ?_
    rw [mem_map_iff, mem_map_iff, h k]
  have hsnd := hperm.map Prod.snd
  rwa [List.map_map, List.map_map] at hsnd

/-- A row that is there outlives an insert. -/
theorem get_insert_of_some {t t' : Table key} {r : R} {k : K} (h : t.insert r = some t')
    (hsome : (t.get k).isSome) : t'.get k = t.get k := by
  obtain ⟨old, hold⟩ := Option.isSome_iff_exists.mp hsome
  rw [hold]
  exact get_of_append hold (insert_eq_some h).1

/-- A deletion takes out the row with the key and no other. -/
theorem erase_rows {t : Table key} {k : K} {r : R} (hget : t.get k = some r) :
    ∃ l₁ l₂, t.rows = l₁ ++ r :: l₂ ∧ (t.erase k).rows = l₁ ++ l₂ := by
  obtain ⟨l₁, l₂, hrows, hne⟩ := get_split hget
  have hkey := (get_eq_some.mp hget).2
  refine ⟨l₁, l₂, hrows, ?_⟩
  show t.rows.filter (key · ≠ k) = l₁ ++ l₂
  rw [hrows, List.filter_append, List.filter_cons_of_neg (by simp [hkey])]
  rw [List.filter_eq_self.mpr fun r' hr' => by simpa using hne r' (List.mem_append_left _ hr'),
    List.filter_eq_self.mpr fun r' hr' => by simpa using hne r' (List.mem_append_right _ hr')]

/-- A sum over the rows, after a row was added. -/
theorem sum_insert {M : Type*} [AddCommMonoid M] {t t' : Table key} {r : R}
    (h : t.insert r = some t') (f : R → M) :
    (t'.rows.map f).sum = (t.rows.map f).sum + f r := by
  simp [(insert_eq_some h).1]

/-- What holds of all rows and of a new one holds of all rows after it. -/
theorem forall_insert {t t' : Table key} {r : R} {P : R → Prop} (h : t.insert r = some t')
    (ht : ∀ r' ∈ t.rows, P r') (hr : P r) : ∀ r' ∈ t'.rows, P r' := by
  intro r' hr'
  rw [(insert_eq_some h).1, List.mem_append, List.mem_singleton] at hr'
  rcases hr' with hr' | rfl
  · exact ht r' hr'
  · exact hr

/-- What holds of all rows and of a changed one holds of all rows after it. -/
theorem forall_replace {t t' : Table key} {k : K} {old new : R} {P : R → Prop}
    (hget : t.get k = some old) (h : t.replace k new = some t') (ht : ∀ r ∈ t.rows, P r)
    (hnew : P new) : ∀ r ∈ t'.rows, P r := by
  obtain ⟨l₁, l₂, hrows, hrows'⟩ := replace_eq_some hget h
  intro r hr
  rw [hrows', List.mem_append, List.mem_cons] at hr
  rcases hr with hr | rfl | hr
  · exact ht r (by simp [hrows, hr])
  · exact hnew
  · exact ht r (by simp [hrows, hr])

/-- A sum over the rows, after a row was changed. -/
theorem sum_replace {M : Type*} [AddCommGroup M] {t t' : Table key} {k : K} {old new : R}
    (hget : t.get k = some old) (h : t.replace k new = some t') (f : R → M) :
    (t'.rows.map f).sum = (t.rows.map f).sum - f old + f new := by
  obtain ⟨l₁, l₂, hrows, hrows'⟩ := replace_eq_some hget h
  rw [hrows, hrows']
  simp only [List.map_append, List.map_cons, List.sum_append, List.sum_cons]
  abel

omit [DecidableEq K] in
/-- A sum over the rows that satisfy `p`, as a sum over all rows. -/
theorem sum_filter {M : Type*} [AddCommMonoid M] (p : R → Bool) (f : R → M) (l : List R) :
    ((l.filter p).map f).sum = (l.map fun r => if p r then f r else 0).sum := by
  induction l with
  | nil => rfl
  | cons r l ih =>
      by_cases hp : p r = true
      · simp [hp, ih]
      · simp [hp, ih]

private theorem sum_single {M : Type*} [AddCommMonoid M] {l : List R} (hl : (l.map key).Nodup)
    (p : R → Bool) (k : K) (v : M) :
    ((l.filter p).map fun r => if k = key r then v else 0).sum =
      if (l.find? (key · = k)).any p then v else 0 := by
  induction l with
  | nil => rfl
  | cons r l ih =>
      rw [List.map_cons, List.nodup_cons] at hl
      by_cases hk : key r = k
      · have hrest : ((l.filter p).map fun r => if k = key r then v else 0).sum = 0 := by
          refine List.sum_eq_zero fun x hx => ?_
          obtain ⟨r', hr', rfl⟩ := List.mem_map.mp hx
          refine if_neg fun heq => hl.1 ?_
          rw [hk, heq]
          exact List.mem_map_of_mem (List.mem_filter.mp hr').1
        rw [List.find?_cons_of_pos (by simpa using hk)]
        by_cases hp : p r = true
        · simp [hp, hrest, hk]
        · simp [hp, hrest]
      · rw [List.find?_cons_of_neg (by simpa using hk), ← ih hl.2]
        have hk' : k ≠ key r := fun heq => hk heq.symm
        by_cases hp : p r = true
        · simp [hp, hk']
        · simp [hp]

/-- The sums of the groups of `xs` over the rows that satisfy `p` are the sum of
`xs` joined with those rows. -/
theorem sum_group {X M : Type*} [AddCommMonoid M] (t : Table key) (p : R → Bool) (g : X → K)
    (f : X → M) (xs : List X) :
    ((t.rows.filter p).map fun r => ((xs.filter (g · = key r)).map f).sum).sum =
      ((xs.filter fun x => (t.get (g x)).any p).map f).sum := by
  induction xs with
  | nil => simp
  | cons x xs ih =>
      have hsplit : ∀ r, (((x :: xs).filter (g · = key r)).map f).sum =
          (if g x = key r then f x else 0) + ((xs.filter (g · = key r)).map f).sum := by
        intro r
        by_cases h : g x = key r
        · simp [h]
        · simp [h]
      simp only [hsplit]
      rw [List.sum_map_add, ih, sum_single t.nodup p (g x) (f x)]
      show (if (t.get (g x)).any p then f x else 0) + _ = _
      by_cases h : (t.get (g x)).any p = true
      · simp [h]
      · simp [h]

end Table

end Foundations
