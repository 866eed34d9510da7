import Nexora.Core.Context
import Nexora.Foundations.Decimal
import Nexora.Foundations.Runs
import Nexora.Foundations.Strings
import Mathlib.Data.List.Sort

/-!
# Numeric grounding

`ungrounded` of `app/modules/ai/grounding.py` reports the numbers of an answer that the results of the
tools do not support.  What is in the results supports a number, and so do the sum and the difference of
two such figures, and the percentage of one of another.

The loop goes over the figures in their order and takes each with itself and those after it.  That is
enough for sums and differences, but it takes percentages of the smaller figure only.  So the check is
right as long as no number of the answer is a percentage of the larger figure that nothing else
supports (`ungrounded_iff`).
-/

namespace Nexora.Ai

open Nexora Foundations

/-! ## Numbers in a text -/

def minus : CodePoint := ord '-'

def comma : CodePoint := ord ','

def point : CodePoint := ord '.'

/-- `\.\d+` at the front of a text, or nothing. -/
def fraction : Str → Str
  | c :: rest =>
      let digits := rest.takeWhile isDecimalDigit
      if c = point ∧ digits ≠ [] then point :: digits else []
  | [] => []

/-- `\d[\d,]*(?:\.\d+)?` at the front of a text. -/
def unsignedNumeric (s : Str) : Option Str :=
  let whole := s.takeWhile fun c => isDecimalDigit c || c = comma
  if s.head?.any isDecimalDigit then some (whole ++ fraction (s.drop whole.length)) else none

/-- `NUMERIC` at the front of a text. -/
def numeric : Str → Option Str
  | c :: rest =>
      if c = minus then (unsignedNumeric rest).map (minus :: ·) else unsignedNumeric (c :: rest)
  | [] => none

/-- `NUMERIC.finditer`.  The characters of a match are passed over. -/
def findNumeric (passed : ℕ) : Str → List Str
  | [] => []
  | c :: rest =>
      match passed with
      | passed + 1 => findNumeric passed rest
      | 0 =>
          match numeric (c :: rest) with
          | some raw => raw :: findNumeric (raw.length - 1) rest
          | none => findNumeric 0 rest

/-- `Decimal` of digits, with a fraction or without. -/
def unsignedDecimal (literal : Str) : Option ℚ :=
  let whole := literal.takeWhile isDecimalDigit
  match literal.dropWhile isDecimalDigit with
  | [] => if whole = [] then none else some (decimalValue whole)
  | c :: digits =>
      if whole ≠ [] ∧ c = point ∧ digits ≠ [] ∧ digits.all isDecimalDigit then
        some (decimalValue (whole ++ digits) / 10 ^ digits.length)
      else none

/-- `_to_decimal`.  Of what `Decimal` reads, `NUMERIC` matches no more than a sign, digits and a
fraction. -/
def toDecimal (raw : Str) : Option ℚ :=
  match raw.filter (· ≠ comma) with
  | c :: rest => if c = minus then (unsignedDecimal rest).map (- ·) else unsignedDecimal (c :: rest)
  | [] => none

/-- `numbers_in`. -/
def numbersIn (text : Str) : List ℚ := ((findNumeric 0 text).filterMap toDecimal).dedup

theorem isDecimalDigit_minus : isDecimalDigit minus = false := by decide +kernel

theorem isDecimalDigit_comma : isDecimalDigit comma = false := by decide +kernel

theorem isDecimalDigit_point : isDecimalDigit point = false := by decide +kernel

/-- A fraction is nothing, or a point with digits behind it. -/
theorem fraction_cases (s : Str) : fraction s = [] ∨ ∃ digits, fraction s = point :: digits ∧
    digits ≠ [] ∧ ∀ c ∈ digits, isDecimalDigit c = true := by
  unfold fraction
  split
  next c rest =>
    simp only
    split
    next h => exact .inr ⟨_, rfl, h.2, fun c hc => List.mem_takeWhile_imp hc⟩
    next => exact .inl rfl
  next => exact .inl rfl

theorem unsignedDecimal_isSome {whole tail : Str} (hne : whole ≠ [])
    (hwhole : ∀ c ∈ whole, isDecimalDigit c = true)
    (htail : tail = [] ∨ ∃ digits, tail = point :: digits ∧ digits ≠ [] ∧
      ∀ c ∈ digits, isDecimalDigit c = true) : (unsignedDecimal (whole ++ tail)).isSome := by
  have hpoint : tail.takeWhile isDecimalDigit = [] ∧ tail.dropWhile isDecimalDigit = tail := by
    rcases htail with rfl | ⟨digits, rfl, -, -⟩
    · exact ⟨rfl, rfl⟩
    · simp [isDecimalDigit_point]
  unfold unsignedDecimal
  rw [List.takeWhile_append_of_pos hwhole, List.dropWhile_append_of_pos hwhole, hpoint.1, hpoint.2,
    List.append_nil]
  rcases htail with rfl | ⟨digits, rfl, hdigits, hall⟩
  · simp [hne]
  · simp [hne, hdigits, List.all_eq_true.mpr hall]

/-- What `NUMERIC` matches is a number. -/
theorem toDecimal_of_unsigned {s raw : Str} (h : unsignedNumeric s = some raw) :
    (toDecimal raw).isSome ∧ (toDecimal (minus :: raw)).isSome := by
  simp only [unsignedNumeric] at h
  split at h
  next hhead =>
    cases h
    obtain ⟨d, hd, hdigit⟩ := (Option.any_eq_true _ _).mp hhead
    obtain ⟨rest, rfl⟩ : ∃ rest, s = d :: rest := List.head?_eq_some_iff.mp hd
    let whole := (d :: rest).takeWhile fun c => isDecimalDigit c || c = comma
    let tail := fraction ((d :: rest).drop whole.length)
    have htail := fraction_cases ((d :: rest).drop whole.length)
    have hcomma : ∀ c, isDecimalDigit c = true → c ≠ comma := by
      rintro c hc rfl
      rw [isDecimalDigit_comma] at hc
      cases hc
    have hkept : tail.filter (· ≠ comma) = tail := by
      refine List.filter_eq_self.mpr fun c hc => decide_eq_true ?_
      rcases htail with hnil | ⟨digits, hdigits, -, hall⟩
      · rw [show tail = [] from hnil] at hc
        cases hc
      · rw [show tail = point :: digits from hdigits] at hc
        rcases List.mem_cons.mp hc with rfl | hc
        · decide +kernel
        · exact hcomma c (hall c hc)
    have hwhole : whole.filter (· ≠ comma) =
        d :: ((rest.takeWhile fun c => isDecimalDigit c || c = comma).filter (· ≠ comma)) := by
      simp [whole, hdigit, hcomma d hdigit]
    have hsome : (unsignedDecimal (whole.filter (· ≠ comma) ++ tail)).isSome := by
      refine unsignedDecimal_isSome (hwhole ▸ List.cons_ne_nil _ _) (fun c hc => ?_) htail
      obtain ⟨hc, hne⟩ := List.mem_filter.mp hc
      have hmatched := List.mem_takeWhile_imp hc
      simp only [Bool.or_eq_true, decide_eq_true_iff] at hmatched hne
      exact hmatched.resolve_right hne
    constructor
    · have hminus : d ≠ minus := by
        rintro rfl
        rw [isDecimalDigit_minus] at hdigit
        cases hdigit
      show (toDecimal (whole ++ tail)).isSome
      rw [hwhole, List.cons_append] at hsome
      rw [toDecimal, List.filter_append, hkept, hwhole, List.cons_append]
      simpa [hminus] using hsome
    · show (toDecimal (minus :: (whole ++ tail))).isSome
      have hminus : minus ≠ comma := by decide +kernel
      rw [toDecimal, List.filter_cons_of_pos (by simpa using hminus), List.filter_append, hkept]
      simpa using hsome
  next => cases h

theorem toDecimal_of_numeric {s raw : Str} (h : numeric s = some raw) : (toDecimal raw).isSome := by
  unfold numeric at h
  split at h
  next c rest =>
    split at h
    next =>
      obtain ⟨raw, hraw, rfl⟩ := Option.map_eq_some_iff.mp h
      exact (toDecimal_of_unsigned hraw).2
    next => exact (toDecimal_of_unsigned h).1
  next => cases h

/-- Every match in a text is a number, so none is left out. -/
theorem toDecimal_of_found {passed : ℕ} {text raw : Str} (h : raw ∈ findNumeric passed text) :
    (toDecimal raw).isSome := by
  induction text generalizing passed with
  | nil => cases h
  | cons c rest ih =>
      unfold findNumeric at h
      split at h
      next => exact ih h
      next =>
        split at h
        next found hfound =>
          rcases List.mem_cons.mp h with rfl | h
          · exact toDecimal_of_numeric hfound
          · exact ih h
        next => exact ih h

/-! ## Results of tools -/

/-- What a tool returns.  A number is what `Decimal(str(payload))` makes of it. -/
inductive Payload where
  | none
  | bool (value : Bool)
  | number (value : ℚ)
  | text (value : Str)
  | list (items : List Payload)
  | dict (fields : List (String × Payload))

mutual

/-- `_flatten`: what a payload adds to the figures. -/
def flatten : Payload → List ℚ
  | .none => []
  | .bool _ => []
  | .number value => [value]
  | .text value => numbersIn value
  | .list items => (items.length : ℚ) :: flattenItems items
  | .dict fields => flattenFields fields

def flattenItems : List Payload → List ℚ
  | [] => []
  | item :: items => flatten item ++ flattenItems items

def flattenFields : List (String × Payload) → List ℚ
  | [] => []
  | (_, value) :: fields => flatten value ++ flattenFields fields

end

/-- `base`, in the order of `sorted`. -/
def figures (results : List Payload) : List ℚ :=
  (flattenItems results).dedup.insertionSort (· ≤ ·)

/-! ## Derivations -/

/-- The pairs of the two loops: each element with itself and with those after it. -/
def pairs {α : Type} : List α → List (α × α)
  | [] => []
  | a :: rest => (a :: rest).map (a, ·) ++ pairs rest

/-- `a / b * Decimal("100")` to one decimal. -/
def percentage (a b : ℚ) : ℚ := roundHalfEven (toContext (toContext (a / b) * 100) * 10) / 10

/-- `quantize` raises when its result needs more than 28 digits. -/
def FitsPercentage (a b : ℚ) : Prop := |roundHalfEven (toContext (toContext (a / b) * 100) * 10)| < 10 ^ 28

instance (a b : ℚ) : Decidable (FitsPercentage a b) := inferInstanceAs (Decidable (_ < _))

/-- What the loops derive from a pair. -/
def derive (pair : ℚ × ℚ) : Except Err (List ℚ) :=
  let (a, b) := pair
  let sums := [toContext (a + b), toContext (a - b), toContext (b - a)]
  if b = 0 then .ok sums
  else if FitsPercentage a b then .ok (sums ++ [percentage a b])
  else .error (.runtime "decimal.InvalidOperation")

/-- `grounded_numbers`. -/
def groundedNumbers (results : List Payload) : Except Err (List ℚ) := do
  let values := figures results
  let derived ← (pairs values).mapM derive
  .ok (values ++ derived.flatten)

/-- `ungrounded`. -/
def ungrounded (answer : Str) (results : List Payload) : Except Err (List ℚ) := do
  let allowed ← groundedNumbers results
  let allowedNormalized := allowed.map toContext
  let offenders := (numbersIn answer).filter fun value => toContext value ∉ allowedNormalized
  .ok (offenders.insertionSort (· ≤ ·))

/-! ## What is documented -/

/-- A figure of the results, or what is derived from two of them.  `admits` says which pairs have a
percentage. -/
inductive Derivation (admits : ℚ → ℚ → Prop) (base : List ℚ) : ℚ → Prop
  | number {a : ℚ} (ha : a ∈ base) : Derivation admits base a
  | sum {a b : ℚ} (ha : a ∈ base) (hb : b ∈ base) : Derivation admits base (a + b)
  | difference {a b : ℚ} (ha : a ∈ base) (hb : b ∈ base) : Derivation admits base (a - b)
  | percentage {a b : ℚ} (ha : a ∈ base) (hb : b ∈ base) (hzero : b ≠ 0) (hab : admits a b) :
      Derivation admits base (percentage a b)

/-- The number equals a derivation, to the 28 digits of the context. -/
def Grounds (admits : ℚ → ℚ → Prop) (base : List ℚ) (v : ℚ) : Prop :=
  ∃ w, Derivation admits base w ∧ toContext v = toContext w

/-- The number equals a documented derivation. -/
abbrev Documented (base : List ℚ) (v : ℚ) : Prop := Grounds (fun _ _ => True) base v

/-- A percentage of a larger figure of a smaller one is what the number equals, and nothing else. -/
def Missed (base : List ℚ) (v : ℚ) : Prop :=
  (∃ a ∈ base, ∃ b ∈ base, b < a ∧ b ≠ 0 ∧ toContext v = toContext (percentage a b)) ∧
    ¬Grounds (· ≤ ·) base v

theorem documented_iff {base : List ℚ} {v : ℚ} :
    Documented base v ↔ Grounds (· ≤ ·) base v ∨ Missed base v := by
  constructor
  · intro h
    by_cases hgrounds : Grounds (· ≤ ·) base v
    · exact .inl hgrounds
    obtain ⟨w, hw, heq⟩ := h
    cases hw with
    | number ha => exact .inl ⟨_, .number ha, heq⟩
    | sum ha hb => exact .inl ⟨_, .sum ha hb, heq⟩
    | difference ha hb => exact .inl ⟨_, .difference ha hb, heq⟩
    | @percentage a b ha hb hzero hab =>
        rcases le_or_gt a b with hle | hlt
        · exact .inl ⟨_, .percentage ha hb hzero hle, heq⟩
        · exact .inr ⟨⟨a, ha, b, hb, hlt, hzero, heq⟩, hgrounds⟩
  · rintro (⟨w, hw, heq⟩ | ⟨⟨a, ha, b, hb, -, hzero, heq⟩, -⟩)
    · refine ⟨w, ?_, heq⟩
      cases hw with
      | number ha => exact .number ha
      | sum ha hb => exact .sum ha hb
      | difference ha hb => exact .difference ha hb
      | percentage ha hb hzero hab => exact .percentage ha hb hzero trivial
    · exact ⟨_, .percentage ha hb hzero trivial, heq⟩

/-! ## The loops -/

theorem mem_pairs {α : Type} [LinearOrder α] {l : List α} (hl : l.Pairwise (· ≤ ·)) {a b : α} :
    (a, b) ∈ pairs l ↔ a ∈ l ∧ b ∈ l ∧ a ≤ b := by
  induction l with
  | nil => simp [pairs]
  | cons c rest ih =>
      obtain ⟨hle, hrest⟩ := List.pairwise_cons.mp hl
      have hfirst : (a, b) ∈ (c :: rest).map (c, ·) ↔ a = c ∧ b ∈ c :: rest := by
        simp only [List.mem_map, Prod.mk.injEq]
        constructor
        · rintro ⟨b', hb, rfl, rfl⟩
          exact ⟨rfl, hb⟩
        · rintro ⟨rfl, hb⟩
          exact ⟨b, hb, rfl, rfl⟩
      rw [pairs, List.mem_append, hfirst, ih hrest]
      constructor
      · rintro (⟨rfl, hb⟩ | ⟨ha, hb, hab⟩)
        · refine ⟨List.mem_cons_self, hb, ?_⟩
          rcases List.mem_cons.mp hb with rfl | hb
          · exact le_rfl
          · exact hle b hb
        · exact ⟨List.mem_cons_of_mem _ ha, List.mem_cons_of_mem _ hb, hab⟩
      · rintro ⟨ha, hb, hab⟩
        rcases List.mem_cons.mp ha with rfl | ha'
        · exact .inl ⟨rfl, hb⟩
        rcases List.mem_cons.mp hb with rfl | hb'
        · exact .inl ⟨le_antisymm hab (hle a ha'), hb⟩
        · exact .inr ⟨ha', hb', hab⟩

/-- What a pair whose percentage fits is good for. -/
def derivations (pair : ℚ × ℚ) : List ℚ :=
  [toContext (pair.1 + pair.2), toContext (pair.1 - pair.2), toContext (pair.2 - pair.1)] ++
    if pair.2 = 0 then [] else [percentage pair.1 pair.2]

theorem derive_eq_ok {pair : ℚ × ℚ} {derived : List ℚ} :
    derive pair = .ok derived ↔
      (pair.2 ≠ 0 → FitsPercentage pair.1 pair.2) ∧ derived = derivations pair := by
  simp only [derive, derivations]
  by_cases hzero : pair.2 = 0
  · simp [hzero, eq_comm]
  by_cases hfits : FitsPercentage pair.1 pair.2
  · simp [hzero, hfits, eq_comm]
  · simp [hzero, hfits]

theorem figures_sorted (results : List Payload) : (figures results).Pairwise (· ≤ ·) :=
  List.pairwise_insertionSort (· ≤ ·) _

/-- Every percentage that the loops take fits. -/
def Fits (base : List ℚ) : Prop := ∀ a ∈ base, ∀ b ∈ base, a ≤ b → b ≠ 0 → FitsPercentage a b

theorem groundedNumbers_eq_ok {results : List Payload} {allowed : List ℚ} :
    groundedNumbers results = .ok allowed ↔ Fits (figures results) ∧
      allowed = figures results ++ (pairs (figures results)).flatMap derivations := by
  have hpairs : Fits (figures results) ↔
      ∀ pair ∈ pairs (figures results), pair.2 ≠ 0 → FitsPercentage pair.1 pair.2 := by
    constructor
    · rintro h ⟨a, b⟩ hpair hzero
      obtain ⟨ha, hb, hab⟩ := (mem_pairs (figures_sorted results)).mp hpair
      exact h a ha b hb hab hzero
    · intro h a ha b hb hab hzero
      exact h (a, b) ((mem_pairs (figures_sorted results)).mpr ⟨ha, hb, hab⟩) hzero
  rw [hpairs]
  constructor
  · intro h
    obtain ⟨derived, hderived, h⟩ := bind_eq_ok.mp h
    cases h
    have hall := mapM_forall₂ hderived
    refine ⟨fun pair hpair => ?_, ?_⟩
    · obtain ⟨_, -, hpair⟩ := exists_of_forall₂ hall.flip hpair
      exact (derive_eq_ok.mp hpair).1
    · rw [mapM_eq_ok_map (fun _ _ h => (derive_eq_ok.mp h).2) hderived, List.flatMap_def]
  · rintro ⟨hfits, rfl⟩
    have hderived : (pairs (figures results)).mapM derive =
        .ok ((pairs (figures results)).map derivations) :=
      mapM_eq_map fun pair hpair => derive_eq_ok.mpr ⟨hfits pair hpair, rfl⟩
    exact bind_eq_ok.mpr ⟨_, hderived, by rw [List.flatMap_def]⟩

/-- What the loops admit. -/
theorem mem_allowed_iff {results : List Payload} {v : ℚ} :
    toContext v ∈ (figures results ++ (pairs (figures results)).flatMap derivations).map toContext ↔
      Grounds (· ≤ ·) (figures results) v := by
  have hpair : ∀ {a b}, (a, b) ∈ pairs (figures results) ↔
      a ∈ figures results ∧ b ∈ figures results ∧ a ≤ b := mem_pairs (figures_sorted results)
  rw [List.mem_map]
  constructor
  · rintro ⟨w, hw, heq⟩
    rcases List.mem_append.mp hw with hw | hw
    · exact ⟨w, .number hw, heq.symm⟩
    obtain ⟨⟨a, b⟩, hab, hw⟩ := List.mem_flatMap.mp hw
    obtain ⟨ha, hb, hab⟩ := hpair.mp hab
    simp only [derivations, List.mem_append, List.mem_cons, List.not_mem_nil, or_false] at hw
    rcases hw with (rfl | rfl | rfl) | hw
    · exact ⟨a + b, .sum ha hb, by rw [← heq, toContext_toContext]⟩
    · exact ⟨a - b, .difference ha hb, by rw [← heq, toContext_toContext]⟩
    · exact ⟨b - a, .difference hb ha, by rw [← heq, toContext_toContext]⟩
    · split at hw
      next => cases hw
      next hzero =>
        rw [List.mem_singleton] at hw
        exact ⟨w, hw ▸ .percentage ha hb hzero hab, heq.symm⟩
  · rintro ⟨w, hw, heq⟩
    have hmem : ∀ {a b u}, a ∈ figures results → b ∈ figures results → a ≤ b →
        u ∈ derivations (a, b) →
        u ∈ figures results ++ (pairs (figures results)).flatMap derivations := by
      intro a b u ha hb hab hu
      exact List.mem_append_right _ (List.mem_flatMap.mpr ⟨_, hpair.mpr ⟨ha, hb, hab⟩, hu⟩)
    cases hw with
    | number ha => exact ⟨w, List.mem_append_left _ ha, heq.symm⟩
    | @sum a b ha hb =>
        refine ⟨toContext (a + b), ?_, by rw [heq, toContext_toContext]⟩
        rcases le_total a b with hab | hab
        · exact hmem ha hb hab (by simp [derivations])
        · exact hmem hb ha hab (by simp [derivations, add_comm])
    | @difference a b ha hb =>
        refine ⟨toContext (a - b), ?_, by rw [heq, toContext_toContext]⟩
        rcases le_total a b with hab | hab
        · exact hmem ha hb hab (by simp [derivations])
        · exact hmem hb ha hab (by simp [derivations])
    | @percentage a b ha hb hzero hab =>
        exact ⟨percentage a b, hmem ha hb hab (by simp [derivations, hzero]), heq.symm⟩

/-! ## The order of the results -/

/-- The same payload, with its fields and the elements of its lists in another order. -/
inductive Reorders : Payload → Payload → Prop
  | refl (p : Payload) : Reorders p p
  | trans {p q r : Payload} (hpq : Reorders p q) (hqr : Reorders q r) : Reorders p r
  | list {items items' : List Payload} (h : items.Perm items') :
      Reorders (.list items) (.list items')
  | item {before after : List Payload} {p q : Payload} (h : Reorders p q) :
      Reorders (.list (before ++ p :: after)) (.list (before ++ q :: after))
  | dict {fields fields' : List (String × Payload)} (h : fields.Perm fields') :
      Reorders (.dict fields) (.dict fields')
  | field {before after : List (String × Payload)} {key : String} {p q : Payload}
      (h : Reorders p q) :
      Reorders (.dict (before ++ (key, p) :: after)) (.dict (before ++ (key, q) :: after))

theorem flattenItems_eq (items : List Payload) : flattenItems items = items.flatMap flatten := by
  induction items with
  | nil => rfl
  | cons item items ih => rw [flattenItems, ih, List.flatMap_cons]

theorem flattenFields_eq (fields : List (String × Payload)) :
    flattenFields fields = fields.flatMap fun field => flatten field.2 := by
  induction fields with
  | nil => rfl
  | cons field fields ih => rw [flattenFields, ih, List.flatMap_cons]

theorem Reorders.flatten_perm {p q : Payload} (h : Reorders p q) :
    (flatten p).Perm (flatten q) := by
  induction h with
  | refl p => exact .refl _
  | trans _ _ ihpq ihqr => exact ihpq.trans ihqr
  | list h =>
      rw [flatten, flatten, h.length_eq, flattenItems_eq, flattenItems_eq]
      exact (h.flatMap_right flatten).cons _
  | item _ ih =>
      simp only [flatten, flattenItems_eq, List.length_append, List.length_cons, List.flatMap_append,
        List.flatMap_cons]
      exact ((ih.append_right _).append_left _).cons _
  | dict h =>
      rw [flatten, flatten, flattenFields_eq, flattenFields_eq]
      exact h.flatMap_right fun field => flatten field.2
  | field _ ih =>
      simp only [flatten, flattenFields_eq, List.flatMap_append, List.flatMap_cons]
      exact (ih.append_right _).append_left _

theorem figures_congr {results results' : List Payload}
    (h : (flattenItems results).Perm (flattenItems results')) : figures results' = figures results := by
  refine List.Perm.eq_of_pairwise (fun a b _ _ hab hba => le_antisymm hab hba)
    (figures_sorted results') (figures_sorted results) ?_
  exact ((List.perm_insertionSort _ _).trans h.symm.dedup).trans (List.perm_insertionSort _ _).symm

theorem ungrounded_congr {results results' : List Payload} (h : figures results' = figures results)
    (answer : Str) : ungrounded answer results' = ungrounded answer results := by
  rw [ungrounded, ungrounded, groundedNumbers, groundedNumbers, h]

/-! ## The check -/

theorem mem_offenders_iff {answer : Str} {results : List Payload} {offenders : List ℚ}
    (h : ungrounded answer results = .ok offenders) (v : ℚ) :
    v ∈ offenders ↔ v ∈ numbersIn answer ∧ ¬Grounds (· ≤ ·) (figures results) v := by
  obtain ⟨allowed, hallowed, h⟩ := bind_eq_ok.mp h
  obtain ⟨-, rfl⟩ := groundedNumbers_eq_ok.mp hallowed
  cases h
  rw [List.mem_insertionSort, List.mem_filter, decide_eq_true_iff, mem_allowed_iff]

theorem ungrounded_ok_iff {answer : Str} {results : List Payload} :
    (∃ offenders, ungrounded answer results = .ok offenders) ↔ Fits (figures results) := by
  constructor
  · rintro ⟨offenders, h⟩
    obtain ⟨allowed, hallowed, -⟩ := bind_eq_ok.mp h
    exact (groundedNumbers_eq_ok.mp hallowed).1
  · intro hfits
    exact ⟨_, bind_eq_ok.mpr ⟨_, groundedNumbers_eq_ok.mpr ⟨hfits, rfl⟩, rfl⟩⟩

/-- The check reports just the numbers that no documented derivation supports, exactly when every
percentage that it takes fits the context and no number of the answer is missed.  The order of fields,
elements and results never matters. -/
theorem ungrounded_iff (answer : Str) (results : List Payload) :
    ((∃ offenders, ungrounded answer results = .ok offenders ∧
        ∀ v, v ∈ offenders ↔ v ∈ numbersIn answer ∧ ¬Documented (figures results) v) ↔
      Fits (figures results) ∧ ∀ v ∈ numbersIn answer, ¬Missed (figures results) v) ∧
    ∀ mid results', results.Perm mid → List.Forall₂ Reorders mid results' →
      ungrounded answer results' = ungrounded answer results := by
  constructor
  · constructor
    · rintro ⟨offenders, hok, hreports⟩
      refine ⟨ungrounded_ok_iff.mp ⟨offenders, hok⟩, fun v hv hmissed => ?_⟩
      have hoffender := (mem_offenders_iff hok v).mpr ⟨hv, hmissed.2⟩
      exact ((hreports v).mp hoffender).2 (documented_iff.mpr (.inr hmissed))
    · rintro ⟨hfits, hmissed⟩
      obtain ⟨offenders, hok⟩ := ungrounded_ok_iff.mpr hfits
      refine ⟨offenders, hok, fun v => ?_⟩
      rw [mem_offenders_iff hok, documented_iff, not_or]
      constructor
      · rintro ⟨hv, hgrounds⟩
        exact ⟨hv, hgrounds, hmissed v hv⟩
      · rintro ⟨hv, hgrounds, -⟩
        exact ⟨hv, hgrounds⟩
  · intro mid results' hperm hreorders
    refine ungrounded_congr (figures_congr ?_) answer
    rw [flattenItems_eq, flattenItems_eq]
    refine (hperm.flatMap_right flatten).trans ?_
    clear hperm
    induction hreorders with
    | nil => exact .refl _
    | cons h _ ih =>
        rw [List.flatMap_cons, List.flatMap_cons]
        exact h.flatten_perm.append ih

/-- The revenue and the cost of a period. -/
def revenueAndCost : List Payload :=
  [.dict [("revenue", .text (str "1000.00")), ("cost", .text (str "600.00"))]]

/-- A difference is supported, and a figure that was made up is reported. -/
theorem ungrounded_difference : ∃ offenders,
    ungrounded (str "Gross profit was 400.00, the fee 7.99.") revenueAndCost = .ok offenders ∧
      ∀ v, v ∈ offenders ↔ v ∈ numbersIn (str "Gross profit was 400.00, the fee 7.99.") ∧
        ¬Documented (figures revenueAndCost) v := by
  refine (ungrounded_iff _ revenueAndCost).1.mpr ⟨?_, fun v hv hmissed => ?_⟩
  · exact show ∀ a ∈ figures revenueAndCost, ∀ b ∈ figures revenueAndCost, a ≤ b → b ≠ 0 →
      FitsPercentage a b by decide +kernel
  · exact (show ∀ v ∈ numbersIn (str "Gross profit was 400.00, the fee 7.99."),
      ¬∃ a ∈ figures revenueAndCost, ∃ b ∈ figures revenueAndCost, b < a ∧ b ≠ 0 ∧
        toContext v = toContext (percentage a b) by decide +kernel) v hv hmissed.1

/-- The revenue is `166.7` per cent of the cost, and the check reports that. -/
theorem ungrounded_larger_percentage :
    Documented (figures revenueAndCost) (1667 / 10) ∧
      ungrounded (str "Revenue is 166.7% of cost.") revenueAndCost = .ok [1667 / 10] := by
  constructor
  · refine ⟨percentage 1000 600, .percentage ?_ ?_ ?_ trivial, ?_⟩
    · decide +kernel
    · decide +kernel
    · decide +kernel
    · decide +kernel
  · decide +kernel

end Nexora.Ai
