import Nexora.Foundations.KeyedTable
import Nexora.Foundations.Runs

/-!
# Rows in scope

A scope is a predicate on rows.  A change of a table stays within it when every row that is new,
changed or gone is in scope, as it was and as it is (`ChangesWithin`).

`AppendsWithin` is the same for a log.
-/

namespace Foundations

variable {R K : Type*} [DecidableEq K]

namespace Table

variable {key : R → K} {scope scope' : R → Prop} {t t' t'' : Table key}

/-- Only rows in scope differ. -/
def ChangesWithin (scope : R → Prop) (t t' : Table key) : Prop :=
  ∀ k, t'.get k ≠ t.get k → ∀ r, t.get k = some r ∨ t'.get k = some r → scope r

namespace ChangesWithin

theorem refl (scope : R → Prop) (t : Table key) : ChangesWithin scope t t :=
  fun _ hne => absurd rfl hne

theorem trans (h : ChangesWithin scope t t') (h' : ChangesWithin scope t' t'') :
    ChangesWithin scope t t'' := by
  intro k hne r hr
  by_cases hfirst : t'.get k = t.get k
  · rw [← hfirst] at hne hr
    exact h' k hne r hr
  · rcases hr with hr | hr
    · exact h k hfirst r (.inl hr)
    · by_cases hsecond : t''.get k = t'.get k
      · exact h k hfirst r (.inr (hsecond ▸ hr))
      · exact h' k hsecond r (.inr hr)

theorem mono (hscope : ∀ r, scope r → scope' r) (h : ChangesWithin scope t t') :
    ChangesWithin scope' t t' :=
  fun k hne r hr => hscope r (h k hne r hr)

theorem insert {r : R} (h : t.insert r = some t') (hr : scope r) : ChangesWithin scope t t' := by
  intro k hne r' hr'
  rw [get_insert h k] at hne hr'
  split_ifs at hne hr' with hk
  · rcases hr' with hr' | hr'
    · rw [hk, (insert_eq_some h).2] at hr'
      cases hr'
    · exact Option.some.inj hr' ▸ hr
  · exact absurd rfl hne

theorem replace {k : K} {old new : R} (hget : t.get k = some old)
    (h : t.replace (key old) new = some t') (hkey : key new = key old) (hold : scope old)
    (hnew : scope new) : ChangesWithin scope t t' := by
  intro k' hne r hr
  have hself := get_self hget
  rw [get_replace hself hkey h k'] at hne hr
  split_ifs at hne hr with hk
  · rcases hr with hr | hr
    · rw [hk, hself] at hr
      exact Option.some.inj hr ▸ hold
    · exact Option.some.inj hr ▸ hnew
  · exact absurd rfl hne

theorem put {r : R} (hold : ∀ old, t.get (key r) = some old → scope old) (hnew : scope r) :
    ChangesWithin scope t (t.put r) := by
  intro k hne r' hr'
  rw [get_put t r k] at hne hr'
  split_ifs at hne hr' with hk
  · rcases hr' with hr' | hr'
    · exact hold r' (hk ▸ hr')
    · exact Option.some.inj hr' ▸ hnew
  · exact absurd rfl hne

/-- A row that did change is in scope. -/
theorem of_replace {k : K} {old new : R} (hwithin : ChangesWithin scope t t')
    (hget : t.get k = some old) (h : t.replace (key old) new = some t') (hkey : key new = key old)
    (hne : new ≠ old) : scope old := by
  have hself := get_self hget
  refine hwithin (key old) ?_ old (.inl hself)
  rw [get_replace hself hkey h, if_pos rfl, hself]
  exact fun heq => hne (Option.some.inj heq)

end ChangesWithin

end Table

/-! ## Logs -/

variable {scope scope' : R → Prop} {l l' l'' : List R}

/-- Rows in scope were appended. -/
def AppendsWithin (scope : R → Prop) (l l' : List R) : Prop :=
  ∃ added, l' = l ++ added ∧ ∀ r ∈ added, scope r

namespace AppendsWithin

theorem refl (scope : R → Prop) (l : List R) : AppendsWithin scope l l :=
  ⟨[], (List.append_nil l).symm, nofun⟩

theorem single {r : R} (hr : scope r) : AppendsWithin scope l (l ++ [r]) :=
  ⟨[r], rfl, fun _ hr' => List.mem_singleton.mp hr' ▸ hr⟩

theorem trans (h : AppendsWithin scope l l') (h' : AppendsWithin scope l' l'') :
    AppendsWithin scope l l'' := by
  obtain ⟨added, rfl, hadded⟩ := h
  obtain ⟨added', rfl, hadded'⟩ := h'
  refine ⟨added ++ added', List.append_assoc _ _ _, fun r hr => ?_⟩
  rcases List.mem_append.mp hr with hr | hr
  · exact hadded r hr
  · exact hadded' r hr

theorem mono (hscope : ∀ r, scope r → scope' r) (h : AppendsWithin scope l l') :
    AppendsWithin scope' l l' := by
  obtain ⟨added, happend, hadded⟩ := h
  exact ⟨added, happend, fun r hr => hscope r (hadded r hr)⟩

theorem length_le (h : AppendsWithin scope l l') : l.length ≤ l'.length := by
  obtain ⟨added, rfl, -⟩ := h
  rw [List.length_append]
  exact Nat.le_add_right _ _

/-- Rows that are in two scopes, where there are any. -/
theorem exists_both (h : AppendsWithin scope l l') (h' : AppendsWithin scope' l l')
    (hlt : l.length < l'.length) : ∃ r, scope r ∧ scope' r := by
  obtain ⟨added, rfl, hadded⟩ := h
  obtain ⟨added', happend, hadded'⟩ := h'
  rw [List.append_cancel_left happend] at hadded
  cases added' with
  | nil =>
      rw [List.append_cancel_left happend, List.append_nil] at hlt
      exact absurd hlt (lt_irrefl _)
  | cons r added' => exact ⟨r, hadded r List.mem_cons_self, hadded' r List.mem_cons_self⟩

end AppendsWithin

end Foundations
