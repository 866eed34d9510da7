import Nexora.Foundations.LockedReads

/-!
# Services over locked rows

A request locks the rows that its arguments name, and then does what its body does to the tables, with
these rows as it has read them.  `RowService` is such a service, run as `LockedReads`.

When no body writes a row that its request has not locked (`RowService.Lawful`), every interleaving is
the requests that went through, one after another (`Lawful.serializable`).  So what each body keeps
holds in every interleaving (`Lawful.invariant`), and what each body leaves of an earlier state every
later one has (`Lawful.follows`).  Of tables whose rows are not deleted that is often that each row is
there later and has only changed in some way (`Table.Later`).
-/

namespace Foundations

/-- What every write leaves of the state before it, a later state has of an earlier one. -/
theorem LockedReads.Rules.follows {S Call Row Seen View Choice : Type} [DecidableEq Row]
    {service : LockedReads S Call Row Seen View Choice} {Writes : S → Call → S → Prop}
    (hrules : service.Rules Writes) {R : S → S → Prop} {I : S → Prop} (hrefl : ∀ s, R s s)
    (htrans : ∀ {s t u}, R s t → R t u → R s u)
    (hI : ∀ s call s', I s → Writes s call s' → I s' ∧ R s s') {s₀ : S} (hs₀ : I s₀)
    {s t : Interleaved S (LockedPhase Call Row Seen View Choice)}
    (hs : service.protocol.Reaches (Protocol.init s₀) s) (ht : service.protocol.Reaches s t) :
    R s.committed t.committed := by
  have hinv := (hrules.sound fun s call s' hi hwrites => (hI s call s' hi hwrites).1).runs hs (.init hs₀)
  refine (hrules.reaches (I := fun u => I u ∧ R s.committed u) ?_ hinv ⟨hinv.committed, hrefl _⟩ ht).2
  rintro u call u' ⟨hu, hfollows⟩ hwrites
  obtain ⟨hu', hstep⟩ := hI u call u' hu hwrites
  exact ⟨hu', htrans hfollows hstep⟩

/-- The requests of a service. -/
structure RowService (S Call Row Seen : Type) where
  /-- The rows that a request locks, in their order. -/
  rows : Call → List Row
  read : S → Row → Option Seen
  row : Seen → Row
  /-- The state with a row as it was read. -/
  see : S → Seen → S
  /-- The state after a request, unless it raises. -/
  body : S → Call → Option S

variable {S Call Row Seen : Type}

namespace RowService

variable (service : RowService S Call Row Seen)

def lockedReads : LockedReads S Call Row Seen Unit Unit where
  plan _ := service.rows
  more _ _ := []
  read := service.read
  row := service.row
  view _ _ := ()
  write s call seen _ _ := service.body (seen.foldl service.see s) call

abbrev protocol : Protocol S Call (LockedPhase Call Row Seen Unit Unit) Unit Row :=
  service.lockedReads.protocol

/-- The states of a service with requests on their way. -/
abbrev Interleaving (_ : RowService S Call Row Seen) : Type :=
  Interleaved S (LockedPhase Call Row Seen Unit Unit)

/-- A body writes no row that its request has not locked. -/
structure Lawful : Prop where
  row_of_read : ∀ {s row r}, service.read s row = some r → service.row r = row
  /-- A row that is as it was read. -/
  see_eq : ∀ {s r}, service.read s (service.row r) = some r → service.see s r = s
  frame : ∀ {s call s' row}, service.body s call = some s' → row ∉ service.rows call →
    service.read s' row = service.read s row ∨ service.read s row = none

variable {service}

theorem seeAll_eq (h : service.Lawful) {s : S} {seen : List Seen}
    (hseen : ∀ r ∈ seen, service.read s (service.row r) = some r) : seen.foldl service.see s = s := by
  induction seen with
  | nil => rfl
  | cons r seen ih =>
      rw [List.foldl_cons, h.see_eq (hseen r List.mem_cons_self)]
      exact ih fun r' hr' => hseen r' (List.mem_cons_of_mem _ hr')

theorem Lawful.rules (h : service.Lawful) :
    service.lockedReads.Rules fun s call s' => service.body s call = some s' where
  row_of_read := h.row_of_read
  write hseen _ hwrite := by
    refine .inr ?_
    simp only [lockedReads] at hseen hwrite
    rwa [seeAll_eq h hseen] at hwrite
  frame {s call s' row r} hbody hrow hread := by
    have hnot : row ∉ service.rows call := fun hmem => hrow (.plan hmem)
    rcases h.frame hbody hnot with hsame | hnone
    · exact hsame.trans hread
    · exact absurd (hnone.symm.trans hread) nofun
  plan _ hrow := hrow
  view _ _ := rfl

variable [DecidableEq Row]

/-- What every body keeps holds in every interleaving. -/
theorem Lawful.invariant (h : service.Lawful) {I : S → Prop}
    (hI : ∀ s call s', I s → service.body s call = some s' → I s') {s₀ : S} (hs₀ : I s₀)
    {s : service.Interleaving} (hs : service.protocol.Reaches (Protocol.init s₀) s) :
    I s.committed :=
  ((h.rules.sound hI).runs hs (.init hs₀)).committed

/-- What every body leaves of the state before it, a later state has of an earlier one. -/
theorem Lawful.follows (h : service.Lawful) {R : S → S → Prop} {I : S → Prop}
    (hrefl : ∀ s, R s s) (htrans : ∀ {s t u}, R s t → R t u → R s u)
    (hI : ∀ s call s', I s → service.body s call = some s' → I s' ∧ R s s') {s₀ : S} (hs₀ : I s₀)
    {s t : service.Interleaving} (hs : service.protocol.Reaches (Protocol.init s₀) s)
    (ht : service.protocol.Reaches s t) : R s.committed t.committed :=
  h.rules.follows hrefl htrans hI hs₀ hs ht

end RowService

/-! ## Tables as they grow -/

namespace Table

variable {R K : Type} [DecidableEq K] {key : R → K} {Becomes : R → R → Prop} {t t' t'' : Table key}

/-- Every row is still there, and has become what it is. -/
def Later (Becomes : R → R → Prop) (t t' : Table key) : Prop :=
  ∀ k r, t.get k = some r → ∃ r', t'.get k = some r' ∧ Becomes r r'

theorem Later.refl (hrefl : ∀ r, Becomes r r) (t : Table key) : Later Becomes t t :=
  fun _ r hget => ⟨r, hget, hrefl r⟩

theorem Later.trans (htrans : ∀ {r r' r''}, Becomes r r' → Becomes r' r'' → Becomes r r'')
    (h : Later Becomes t t') (h' : Later Becomes t' t'') : Later Becomes t t'' := by
  intro k r hget
  obtain ⟨r', hget', hr'⟩ := h k r hget
  obtain ⟨r'', hget'', hr''⟩ := h' k r' hget'
  exact ⟨r'', hget'', htrans hr' hr''⟩

theorem Later.insert (hrefl : ∀ r, Becomes r r) {r : R} (h : t.insert r = some t') :
    Later Becomes t t' := by
  intro k r' hget
  have hsome : (t.get k).isSome := Option.isSome_iff_exists.mpr ⟨r', hget⟩
  exact ⟨r', (get_insert_of_some h hsome).trans hget, hrefl r'⟩

theorem Later.modify {f : R → R} (hf : ∀ r, key (f r) = key r) (h : ∀ r, Becomes r (f r)) :
    Later Becomes t (t.modify f hf) :=
  fun k r hget => ⟨f r, by rw [get_modify, hget]; rfl, h r⟩

theorem Later.replace (hrefl : ∀ r, Becomes r r) {old new : R} (hget : t.get (key old) = some old)
    (h : t.replace (key old) new = some t') (hkey : key new = key old) (hbecomes : Becomes old new) :
    Later Becomes t t' := by
  intro k r hr
  rw [get_replace hget hkey h k]
  split_ifs with hk
  · subst hk
    obtain rfl := Option.some.inj (hget.symm.trans hr)
    exact ⟨new, rfl, hbecomes⟩
  · exact ⟨r, hr, hrefl r⟩

/-- What is read of a row that was there is not changed by a new one. -/
theorem map_get_insert_same {X : Type} {r : R} (h : t.insert r = some t') (f : R → X) (k : K) :
    (t'.get k).map f = (t.get k).map f ∨ (t.get k).map f = none := by
  rw [get_insert h k]
  split_ifs with hk
  · subst hk
    exact .inr (by rw [(insert_eq_some h).2]; rfl)
  · exact .inl rfl

theorem Later.isSome (h : Later Becomes t t') {k : K} (hk : (t.get k).isSome) : (t'.get k).isSome := by
  obtain ⟨r, hget⟩ := Option.isSome_iff_exists.mp hk
  obtain ⟨r', hget', -⟩ := h k r hget
  exact Option.isSome_iff_exists.mpr ⟨r', hget'⟩

/-! ## Columns without repetitions -/

variable {X : Type} {old new r : R}

theorem nodup_map_insert {f : R → X} (h : t.insert r = some t') (ht : (t.rows.map f).Nodup)
    (hr : f r ∉ t.rows.map f) : (t'.rows.map f).Nodup := by
  rw [(insert_eq_some h).1, List.map_append, List.map_singleton, ← List.concat_eq_append,
    List.nodup_concat]
  exact ⟨hr, ht⟩

theorem map_rows_replace {k : K} (f : R → X) (hget : t.get k = some old)
    (h : t.replace k new = some t') (hf : f new = f old) : t'.rows.map f = t.rows.map f := by
  obtain ⟨l₁, l₂, hrows, hrows'⟩ := replace_eq_some hget h
  rw [hrows, hrows', List.map_append, List.map_append, List.map_cons, List.map_cons, hf]

/-- A column that may be null, and is in the new row. -/
theorem filterMap_rows_insert (f : R → Option X) (h : t.insert r = some t') (hr : f r = none) :
    t'.rows.filterMap f = t.rows.filterMap f := by
  rw [(insert_eq_some h).1, List.filterMap_append, List.filterMap_cons_none hr, List.filterMap_nil,
    List.append_nil]

theorem filterMap_rows_replace {k : K} (f : R → Option X) (hget : t.get k = some old)
    (h : t.replace k new = some t') (hf : f new = f old) :
    t'.rows.filterMap f = t.rows.filterMap f := by
  obtain ⟨l₁, l₂, hrows, hrows'⟩ := replace_eq_some hget h
  simp only [hrows, hrows', List.filterMap_append, List.filterMap_cons, hf]

/-- A value that no row has goes into a column where there was none. -/
theorem nodup_filterMap_replace {k : K} {f : R → Option X} {x : X} (hget : t.get k = some old)
    (h : t.replace k new = some t') (hold : f old = none) (hnew : f new = some x)
    (hx : x ∉ t.rows.filterMap f) (ht : (t.rows.filterMap f).Nodup) :
    (t'.rows.filterMap f).Nodup := by
  obtain ⟨l₁, l₂, hrows, hrows'⟩ := replace_eq_some hget h
  rw [hrows, List.filterMap_append, List.filterMap_cons_none hold] at hx ht
  rw [hrows', List.filterMap_append, List.filterMap_cons_some hnew]
  exact List.nodup_middle.mpr (List.nodup_cons.mpr ⟨hx, ht⟩)

end Table

end Foundations
