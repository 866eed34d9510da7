import Mathlib.Logic.Relation
import Mathlib.Logic.Function.Basic
import Mathlib.Data.List.Forall2

/-!
# Runs of transition systems

A system is a relation `step s l t`: in state `s` the step labelled `l` may lead
to `t`.  A run is any finite sequence of steps.  `Run guard step` keeps only the
runs whose every step meets `guard` in the state it is taken from, so a property
of all runs is the case `guard = fun _ _ => True`.

`Run.invariant` is the one induction over runs.  A safety property is proved by
giving an invariant that the initial states have and that each guarded step
keeps.

The last sections invert what one step of a system is usually given by: entries
of a table changed at one key, and computations in `Except`.
-/

namespace Foundations

section Runs

variable {S L : Type*}

/-- The runs whose every step meets `guard`. -/
def Run (guard : S → L → Prop) (step : S → L → S → Prop) : S → S → Prop :=
  Relation.ReflTransGen fun s t => ∃ l, guard s l ∧ step s l t

variable {guard : S → L → Prop} {step : S → L → S → Prop} {s t u : S}

theorem Run.refl (s : S) : Run guard step s s := Relation.ReflTransGen.refl

theorem Run.snoc {l : L} (h : Run guard step s t) (hg : guard t l) (hs : step t l u) :
    Run guard step s u :=
  Relation.ReflTransGen.tail h ⟨l, hg, hs⟩

/-- What every guarded step keeps holds after every guarded run. -/
theorem Run.invariant {I : S → Prop} (hstep : ∀ s l t, I s → guard s l → step s l t → I t)
    (h : Run guard step s t) (hs : I s) : I t := by
  induction h with
  | refl => exact hs
  | tail _ hlast ih =>
      obtain ⟨l, hg, ht⟩ := hlast
      exact hstep _ l _ ih hg ht

theorem Run.mono {guard' : S → L → Prop} (hguard : ∀ s l, guard s l → guard' s l)
    (h : Run guard step s t) : Run guard' step s t := by
  induction h with
  | refl => exact .refl _
  | tail _ hlast ih =>
      obtain ⟨l, hg, hs⟩ := hlast
      exact ih.snoc (hguard _ l hg) hs

/-- A sequence of steps that all succeed is a run. -/
theorem Run.of_foldlM {f : S → L → Option S} (ls : List L) (h : ls.foldlM f s = some t) :
    Run (fun _ _ => True) (fun s l t => f s l = some t) s t := by
  induction ls generalizing s with
  | nil =>
      cases h
      exact Run.refl _
  | cons l ls ih =>
      rw [List.foldlM_cons] at h
      obtain ⟨u, hu, h⟩ := Option.bind_eq_some_iff.mp h
      exact Relation.ReflTransGen.head ⟨l, trivial, hu⟩ (ih h)

/-- A sequence of steps that all succeed and meet the guard. -/
theorem Run.of_guarded [∀ s l, Decidable (guard s l)] {f : S → L → Option S} (ls : List L)
    (h : ls.foldlM (fun s l => if guard s l then f s l else none) s = some t) :
    Run guard (fun s l t => f s l = some t) s t := by
  induction ls generalizing s with
  | nil =>
      cases h
      exact Run.refl _
  | cons l ls ih =>
      rw [List.foldlM_cons] at h
      obtain ⟨u, hu, h⟩ := Option.bind_eq_some_iff.mp h
      split at hu
      next hg => exact Relation.ReflTransGen.head ⟨l, hg, hu⟩ (ih h)
      next => cases hu

/-- The same, to a state with `F`. -/
theorem Run.exists_of_any [∀ s l, Decidable (guard s l)] {f : S → L → Option S} {F : S → Prop}
    [DecidablePred F] (ls : List L)
    (h : (ls.foldlM (fun s l => if guard s l then f s l else none) s).any fun t => F t) :
    ∃ t, Run guard (fun s l t => f s l = some t) s t ∧ F t := by
  obtain ⟨t, ht, hF⟩ := Option.any_eq_true _ _ |>.mp h
  exact ⟨t, .of_guarded ls ht, of_decide_eq_true hF⟩

/-- A sequence of steps of a system whose steps never fail is a run. -/
theorem Run.foldl {f : S → L → S} (ls : List L) (s : S) :
    Run (fun _ _ => True) (fun s l t => f s l = t) s (ls.foldl f s) := by
  induction ls generalizing s with
  | nil => exact Run.refl s
  | cons l ls ih => exact Relation.ReflTransGen.head ⟨l, trivial, rfl⟩ (ih (f s l))

end Runs

section Tables

variable {K V : Type*} [DecidableEq K]

/-- An entry of a table changed at `k` is the new one or an old one. -/
theorem update_eq_some {f : K → Option V} {k k' : K} {new : Option V} {v : V} :
    Function.update f k new k' = some v ↔ k' = k ∧ new = some v ∨ k' ≠ k ∧ f k' = some v := by
  rw [Function.update_apply]
  by_cases h : k' = k <;> simp [h]

end Tables

section Except

universe u v

variable {ε : Type u} {α β : Type v}

/-- A computation that returns ran its first part to a value. -/
theorem bind_eq_ok {x : Except ε α} {f : α → Except ε β} {b : β} :
    (x >>= f) = .ok b ↔ ∃ a, x = .ok a ∧ f a = .ok b := by
  cases x with
  | error e => simp [Bind.bind, Except.bind]
  | ok a => simp [Bind.bind, Except.bind]

theorem map_eq_ok {x : Except ε α} {f : α → β} {b : β} :
    x.map f = .ok b ↔ ∃ a, x = .ok a ∧ f a = b := by
  cases x with
  | error e => simp [Except.map]
  | ok a => simp [Except.map]

/-- A computation raises what one of its parts raises. -/
theorem bind_eq_error {x : Except ε α} {f : α → Except ε β} {e : ε} :
    (x >>= f) = .error e ↔ x = .error e ∨ ∃ a, x = .ok a ∧ f a = .error e := by
  cases x with
  | error e' => simp [Bind.bind, Except.bind]
  | ok a => simp [Bind.bind, Except.bind]

/-- `if p then raise e` returns only when `p` fails. -/
theorem ite_error_eq_ok {p : Prop} [Decidable p] {e : ε} {x : Except ε α} {a : α} :
    (if p then .error e else x) = .ok a ↔ ¬p ∧ x = .ok a := by
  by_cases hp : p <;> simp [hp]

/-- `raise e` where a value is missing. -/
def orRaise (e : ε) : Option α → Except ε α
  | some a => .ok a
  | none => .error e

theorem orRaise_eq_ok {e : ε} {x : Option α} {a : α} : orRaise e x = .ok a ↔ x = some a := by
  cases x with
  | none => simp [orRaise]
  | some b => simp [orRaise]

theorem toOption_eq_some {x : Except ε α} {a : α} : x.toOption = some a ↔ x = .ok a := by
  cases x with
  | error e => simp [Except.toOption]
  | ok b => simp [Except.toOption]

/-- The error that a computation raises. -/
def raised : Except ε α → Option ε
  | .error e => some e
  | .ok _ => none

theorem raised_eq_some {x : Except ε α} {e : ε} : raised x = some e ↔ x = .error e := by
  cases x with
  | error e' => simp [raised]
  | ok a => simp [raised]

/-- A loop of checks that returns passed each of them. -/
theorem forM_eq_ok {γ : Type*} {f : γ → Except ε PUnit.{v + 1}} {l : List γ} {u : PUnit.{v + 1}}
    (h : l.forM f = .ok u) : ∀ c ∈ l, f c = .ok u := by
  induction l with
  | nil => exact nofun
  | cons c l ih =>
      have hbind : (f c >>= fun _ => l.forM f) = .ok u := h
      obtain ⟨_, hc, h⟩ := bind_eq_ok.mp hbind
      intro c' hc'
      rcases List.mem_cons.mp hc' with rfl | hc'
      · exact hc
      · exact ih h c' hc'

theorem forM_of_forall {γ : Type*} {f : γ → Except ε PUnit.{v + 1}} {l : List γ}
    (h : ∀ c ∈ l, f c = .ok ⟨⟩) : l.forM f = .ok ⟨⟩ := by
  induction l with
  | nil => rfl
  | cons c l ih =>
      exact bind_eq_ok.mpr ⟨⟨⟩, h c List.mem_cons_self,
        ih fun c' hc' => h c' (List.mem_cons_of_mem _ hc')⟩

/-- What every pass of a loop keeps holds after the loop. -/
theorem foldlM_invariant {γ : Type*} {f : β → γ → Except ε β} {I : β → Prop} {l : List γ}
    {b b' : β} (hstep : ∀ c ∈ l, ∀ b b', I b → f b c = .ok b' → I b')
    (h : l.foldlM f b = .ok b') (hb : I b) : I b' := by
  induction l generalizing b with
  | nil =>
      cases h
      exact hb
  | cons c l ih =>
      rw [List.foldlM_cons] at h
      obtain ⟨b₁, hb₁, h⟩ := bind_eq_ok.mp h
      exact ih (fun c' hc' => hstep c' (List.mem_cons_of_mem c hc')) h
        (hstep c List.mem_cons_self b b₁ hb hb₁)

/-- A loop whose every pass adds one element to a list. -/
theorem foldlM_appends {γ X : Type*} {f : β → γ → Except ε β} (out : β → List X) {g : γ → X}
    (hstep : ∀ b c b', f b c = .ok b' → out b' = out b ++ [g c]) {l : List γ} {b b' : β}
    (h : l.foldlM f b = .ok b') : out b' = out b ++ l.map g := by
  induction l generalizing b with
  | nil =>
      cases h
      rw [List.map_nil, List.append_nil]
  | cons c l ih =>
      rw [List.foldlM_cons] at h
      obtain ⟨b₁, hb₁, h⟩ := bind_eq_ok.mp h
      rw [ih h, hstep b c b₁ hb₁, List.append_assoc, List.map_cons, List.singleton_append]

/-- A loop raises what one of its passes raises. -/
theorem foldlM_ne_error {γ : Type*} {f : β → γ → Except ε β} {l : List γ} {e : ε}
    (hstep : ∀ b c, f b c ≠ .error e) (b : β) : l.foldlM f b ≠ .error e := by
  induction l generalizing b with
  | nil => exact nofun
  | cons c l ih =>
      intro h
      rw [List.foldlM_cons] at h
      rcases bind_eq_error.mp h with h | ⟨b', -, h⟩
      · exact hstep b c h
      · exact ih b' h

/-- A loop that returns has one value for each pass. -/
theorem mapM_forall₂ {γ : Type*} {f : γ → Except ε β} {l : List γ} {bs : List β}
    (h : l.mapM f = .ok bs) : List.Forall₂ (fun c b => f c = .ok b) l bs := by
  induction l generalizing bs with
  | nil =>
      cases h
      exact .nil
  | cons c l ih =>
      rw [List.mapM_cons] at h
      obtain ⟨b, hb, h⟩ := bind_eq_ok.mp h
      obtain ⟨bs', hbs', h⟩ := bind_eq_ok.mp h
      cases h
      exact .cons hb (ih hbs')

/-- A loop returns when each of its passes does. -/
theorem mapM_eq_map {γ : Type*} {f : γ → Except ε β} {g : γ → β} {l : List γ}
    (h : ∀ c ∈ l, f c = .ok (g c)) : l.mapM f = .ok (l.map g) := by
  induction l with
  | nil => rfl
  | cons c l ih =>
      rw [List.mapM_cons, h c List.mem_cons_self, ih fun c' hc' => h c' (List.mem_cons_of_mem _ hc')]
      rfl

/-- What a loop returns, as far as its passes tell. -/
theorem mapM_map_eq {γ δ : Type*} {f : γ → Except ε β} {g : γ → δ} {k : β → δ} {l : List γ}
    {bs : List β} (hf : ∀ c b, f c = .ok b → k b = g c) (h : l.mapM f = .ok bs) :
    bs.map k = l.map g := by
  have hmaps : List.Forall₂ Eq (l.map g) (bs.map k) := by
    rw [List.forall₂_map_left_iff, List.forall₂_map_right_iff]
    exact (mapM_forall₂ h).imp fun c b hb => (hf c b hb).symm
  rw [List.forall₂_eq_eq_eq] at hmaps
  exact hmaps.symm

/-- What a loop returns, when its passes return what a function says. -/
theorem mapM_eq_ok_map {γ : Type*} {f : γ → Except ε β} {g : γ → β} {l : List γ} {bs : List β}
    (hf : ∀ c b, f c = .ok b → b = g c) (h : l.mapM f = .ok bs) : bs = l.map g := by
  rw [← mapM_map_eq (k := id) hf h, List.map_id]

/-- A loop whose passes all leave the state as it is. -/
theorem foldlM_eq_self {γ : Type*} {f : β → γ → Except ε β} {l : List γ} {b : β}
    (h : ∀ c ∈ l, f b c = .ok b) : l.foldlM f b = .ok b := by
  induction l with
  | nil => rfl
  | cons c l ih =>
      rw [List.foldlM_cons, h c List.mem_cons_self]
      exact ih fun c' hc' => h c' (List.mem_cons_of_mem _ hc')

/-- Every member of the second of two related lists is related to one of the first. -/
theorem forall₂_trans {γ δ : Type*} {R : γ → β → Prop} {S : β → δ → Prop} {T : γ → δ → Prop}
    {as : List γ} {bs : List β} {cs : List δ} (h : List.Forall₂ R as bs)
    (h' : List.Forall₂ S bs cs) (hT : ∀ a ∈ as, ∀ b c, R a b → S b c → T a c) :
    List.Forall₂ T as cs := by
  induction h generalizing cs with
  | nil =>
      cases h'
      exact .nil
  | @cons a b as bs hab _ ih =>
      cases h' with
      | @cons _ c _ cs hbc hrest =>
          exact .cons (hT a List.mem_cons_self b c hab hbc)
            (ih hrest fun a ha => hT a (List.mem_cons_of_mem _ ha))

theorem exists_of_forall₂ {γ : Type*} {R : γ → β → Prop} {l : List γ} {bs : List β}
    (h : List.Forall₂ R l bs) {b : β} (hb : b ∈ bs) : ∃ c ∈ l, R c b := by
  induction h with
  | nil => cases hb
  | cons hhead _ ih =>
      cases hb with
      | head => exact ⟨_, List.mem_cons_self, hhead⟩
      | tail _ hb =>
          obtain ⟨c, hc, hrel⟩ := ih hb
          exact ⟨c, List.mem_cons_of_mem _ hc, hrel⟩

/-- What every value of a loop has, all values of it have. -/
theorem mapM_forall {γ : Type*} {f : γ → Except ε β} {P : β → Prop} {l : List γ} {bs : List β}
    (hf : ∀ c b, f c = .ok b → P b) (h : l.mapM f = .ok bs) : ∀ b ∈ bs, P b := by
  induction l generalizing bs with
  | nil =>
      cases h
      exact nofun
  | cons c l ih =>
      rw [List.mapM_cons] at h
      obtain ⟨b, hb, h⟩ := bind_eq_ok.mp h
      obtain ⟨bs', hbs', h⟩ := bind_eq_ok.mp h
      cases h
      intro b' hb'
      rcases List.mem_cons.mp hb' with rfl | hb'
      · exact hf c b' hb
      · exact ih hbs' b' hb'

end Except

end Foundations
