import Nexora.Accounting.PostingRules

/-!
# What the journal accepts

`post` refuses an entry without lines, one whose sides differ and one that is zero, and the
columns of the journal refuse a line that has not exactly one positive side once its amounts
are rounded to four decimals.  `Accepted` is all of this, and the rules say when the lines they
build are.
-/

namespace Nexora.Accounting

open Nexora Foundations

/-! ## Entries -/

/-- `exactly_one_side`, on the amounts in their columns. -/
def PostingLine.OneSided (line : PostingLine) : Prop :=
  0 < roundHalfUp (line.debit * 10 ^ 4) ∧ roundHalfUp (line.credit * 10 ^ 4) = 0 ∨
    0 < roundHalfUp (line.credit * 10 ^ 4) ∧ roundHalfUp (line.debit * 10 ^ 4) = 0

instance (line : PostingLine) : Decidable line.OneSided := inferInstanceAs (Decidable (_ ∨ _))

/-- The debits of an entry, as `post` adds them up. -/
def debitSum (lines : List PostingLine) : ℚ := decimalSum (lines.map (·.debit))

/-- The credits of an entry, as `post` adds them up. -/
def creditSum (lines : List PostingLine) : ℚ := decimalSum (lines.map (·.credit))

/-- Lines that the columns of the journal take: there are some, and each of them fits and has
exactly one positive side. -/
structure Storable (lines : List PostingLine) : Prop where
  nonempty : lines ≠ []
  oneSided : ∀ line ∈ lines, line.OneSided
  fits : ∀ line ∈ lines, line.Fits

/-- The lines of an entry that `post` and the journal accept: they balance before and after
each of them is rounded. -/
structure Accepted (lines : List PostingLine) : Prop extends Storable lines where
  balanced : debitSum lines = creditSum lines
  nonzero : debitSum lines ≠ 0
  total_fits : |roundHalfUp (debitSum lines * 10 ^ 4)| < 10 ^ 18
  stored : storedDebit lines = roundHalfUp (debitSum lines * 10 ^ 4) ∧
    storedCredit lines = roundHalfUp (debitSum lines * 10 ^ 4)

theorem requireBalanced_eq_ok {noLines : Bool} {debit credit : ℚ} :
    requireBalanced noLines debit credit = .ok () ↔
      noLines = false ∧ debit = credit ∧ debit ≠ 0 := by
  unfold requireBalanced
  split
  next h =>
    refine iff_of_false nofun ?_
    rintro ⟨rfl, rfl, hzero⟩
    simp [hzero] at h
  next h => simpa [not_or] using h

theorem Accepted.requireBalanced {lines : List PostingLine} (h : Accepted lines) :
    requireBalanced lines.isEmpty (debitSum lines) (creditSum lines) = .ok () :=
  requireBalanced_eq_ok.mpr ⟨by simpa using h.nonempty, h.balanced, h.nonzero⟩

/-! ## A cost on both sides -/

/-- A cost that is positive in its column, and fits it. -/
def Bookable (cost : ℚ) : Prop := 1 / 2 ≤ cost * 10 ^ 4 ∧ cost * 10 ^ 4 < 10 ^ 18 - 1 / 2

instance (cost : ℚ) : Decidable (Bookable cost) := inferInstanceAs (Decidable (_ ∧ _))

theorem bookable_iff {cost : ℚ} (h : 0 ≤ cost) :
    Bookable cost ↔ 0 < roundHalfUp (cost * 10 ^ 4) ∧ |roundHalfUp (cost * 10 ^ 4)| < 10 ^ 18 := by
  have hscaled : 0 ≤ cost * 10 ^ 4 := by positivity
  rw [abs_of_nonneg (roundHalfUp_nonneg hscaled), roundHalfUp_of_nonneg hscaled, Int.lt_iff_add_one_le,
    Int.le_floor, Int.floor_lt, Bookable, lt_sub_iff_add_lt]
  norm_num
  intro _
  constructor
  · intro h
    linarith
  · intro h
    linarith

section Pair

variable {debitCode creditCode : String} {cost : ℚ}

theorem bookable_of_storable (hcost : 0 ≤ cost)
    (h : Storable [.ofDebit debitCode cost, .ofCredit creditCode cost]) : Bookable cost := by
  have hside := h.oneSided _ List.mem_cons_self
  simp only [PostingLine.OneSided, PostingLine.ofDebit, zero_mul, roundHalfUp_zero, lt_irrefl,
    false_and, or_false] at hside
  exact (bookable_iff hcost).mpr ⟨hside.1, (h.fits _ List.mem_cons_self).1⟩

theorem accepted_of_bookable (hcost : 0 ≤ cost) (hdigits : toContext cost = cost)
    (h : Bookable cost) : Accepted [.ofDebit debitCode cost, .ofCredit creditCode cost] := by
  have hdebit : debitSum [.ofDebit debitCode cost, .ofCredit creditCode cost] = cost := by
    simp [debitSum, decimalSum, PostingLine.ofDebit, PostingLine.ofCredit, hdigits]
  have hcredit : creditSum [.ofDebit debitCode cost, .ofCredit creditCode cost] = cost := by
    simp [creditSum, decimalSum, PostingLine.ofDebit, PostingLine.ofCredit, hdigits, toContext_zero]
  have hzero : |(0 : Money)| < 10 ^ 18 := by norm_num
  obtain ⟨hpos, hlt⟩ := (bookable_iff hcost).mp h
  refine ⟨⟨by simp, ?_, ?_⟩, hdebit.trans hcredit.symm, ?_, ?_, ?_⟩
  · simp [PostingLine.OneSided, PostingLine.ofDebit, PostingLine.ofCredit, hpos]
  · simp only [List.mem_cons, List.not_mem_nil, or_false, forall_eq_or_imp, forall_eq,
      PostingLine.Fits, PostingLine.ofDebit, PostingLine.ofCredit, zero_mul, roundHalfUp_zero]
    exact ⟨⟨hlt, hzero⟩, hzero, hlt⟩
  · rw [hdebit]
    rintro rfl
    simp at hpos
  · rw [hdebit]
    exact hlt
  · rw [hdebit]
    simp [storedDebit, storedCredit, PostingLine.ofDebit, PostingLine.ofCredit]

end Pair

/-! ## Amounts of documents -/

theorem toContext_money {amount : Money} (h : |amount| < 10 ^ 18) :
    toContext (money amount) = money amount := by
  have hadd := toContext_money_add h (b := 0) (by norm_num)
  simpa [money] using hadd

theorem decimalSum_money {amounts : List Money} (hnonneg : ∀ amount ∈ amounts, 0 ≤ amount)
    (hsum : amounts.sum < 10 ^ 18) :
    decimalSum (amounts.map money) = money amounts.sum := by
  have hfold : ∀ acc : Money, 0 ≤ acc → acc + amounts.sum < 10 ^ 18 →
      (amounts.map money).foldl (fun acc x => toContext (acc + x)) (money acc) =
        money (acc + amounts.sum) := by
    clear hsum
    induction amounts with
    | nil => simp
    | cons amount amounts ih =>
        intro acc hacc hlt
        have hamount := hnonneg amount List.mem_cons_self
        have hrest : ∀ a ∈ amounts, 0 ≤ a := fun a ha => hnonneg a (List.mem_cons_of_mem _ ha)
        have htail := List.sum_nonneg hrest
        rw [List.sum_cons, ← add_assoc] at hlt ⊢
        rw [List.map_cons, List.foldl_cons, toContext_money_add]
        · exact ih hrest _ (add_nonneg hacc hamount) hlt
        · rw [abs_of_nonneg hacc]
          linarith
        · rw [abs_of_nonneg hamount]
          linarith
  have h := hfold 0 le_rfl (by simpa using hsum)
  simpa [decimalSum, money] using h

section Documents

variable {lines : List PostingLine} {amounts : List (Money × Money)}

/-- The lines have the amounts of documents on their sides. -/
def Carries (lines : List PostingLine) (amounts : List (Money × Money)) : Prop :=
  lines.map (fun line => (line.debit, line.credit)) = amounts.map fun a => (money a.1, money a.2)

/-- An amount is on one side of its line. -/
def OneSide (a : Money × Money) : Prop := 0 < a.1 ∧ a.2 = 0 ∨ 0 < a.2 ∧ a.1 = 0

theorem Carries.of_line (h : Carries lines amounts) {line : PostingLine} (hline : line ∈ lines) :
    ∃ a ∈ amounts, line.debit = money a.1 ∧ line.credit = money a.2 := by
  have hmem := List.mem_map_of_mem (f := fun line : PostingLine => (line.debit, line.credit)) hline
  rw [show lines.map _ = _ from h] at hmem
  obtain ⟨a, ha, heq⟩ := List.mem_map.mp hmem
  exact ⟨a, ha, congrArg Prod.fst heq.symm, congrArg Prod.snd heq.symm⟩

theorem Carries.oneSided (h : Carries lines amounts) :
    (∀ line ∈ lines, line.OneSided) ↔ ∀ a ∈ amounts, OneSide a := by
  have hsides : ∀ line : PostingLine, ∀ a : Money × Money, line.debit = money a.1 →
      line.credit = money a.2 → (line.OneSided ↔ OneSide a) := by
    intro line a hd hc
    rw [PostingLine.OneSided, hd, hc, roundHalfUp_money, roundHalfUp_money]
    rfl
  constructor
  · intro hall a ha
    have hmem := List.mem_map_of_mem (f := fun a : Money × Money => (money a.1, money a.2)) ha
    rw [← show lines.map _ = _ from h] at hmem
    obtain ⟨line, hline, heq⟩ := List.mem_map.mp hmem
    exact (hsides line a (congrArg Prod.fst heq) (congrArg Prod.snd heq)).mp (hall line hline)
  · intro hall line hline
    obtain ⟨a, ha, hd, hc⟩ := h.of_line hline
    exact (hsides line a hd hc).mpr (hall a ha)

theorem Carries.accepted (h : Carries lines amounts) (hne : amounts ≠ [])
    (hsides : ∀ a ∈ amounts, OneSide a) (hsum : (amounts.map (·.1)).sum < 10 ^ 18)
    (hbalanced : (amounts.map (·.1)).sum = (amounts.map (·.2)).sum) : Accepted lines := by
  have hnonneg : ∀ a ∈ amounts, 0 ≤ a.1 ∧ 0 ≤ a.2 := by
    intro a ha
    rcases hsides a ha with ⟨hpos, hzero⟩ | ⟨hpos, hzero⟩
    · exact ⟨hpos.le, hzero.ge⟩
    · exact ⟨hzero.ge, hpos.le⟩
  have hle : ∀ a ∈ amounts, a.1 ≤ (amounts.map (·.1)).sum ∧ a.2 ≤ (amounts.map (·.1)).sum := by
    intro a ha
    have hfst := List.single_le_sum (by simpa using fun x y hxy => (hnonneg (x, y) hxy).1) a.1
      (List.mem_map_of_mem (f := Prod.fst) ha)
    have hsnd := List.single_le_sum (by simpa using fun y x hxy => (hnonneg (x, y) hxy).2) a.2
      (List.mem_map_of_mem (f := Prod.snd) ha)
    exact ⟨hfst, hbalanced ▸ hsnd⟩
  have hpos : 0 < (amounts.map (·.1)).sum := by
    obtain ⟨a, ha⟩ := List.exists_mem_of_ne_nil _ hne
    rcases hsides a ha with ⟨hside, -⟩ | ⟨hside, -⟩
    · exact hside.trans_le (hle a ha).1
    · exact hside.trans_le (hle a ha).2
  have hdebits : lines.map (·.debit) = (amounts.map (·.1)).map money := by
    simpa [Function.comp_def] using congrArg (List.map Prod.fst) (show lines.map _ = _ from h)
  have hcredits : lines.map (·.credit) = (amounts.map (·.2)).map money := by
    simpa [Function.comp_def] using congrArg (List.map Prod.snd) (show lines.map _ = _ from h)
  have hdebit : debitSum lines = money (amounts.map (·.1)).sum := by
    rw [debitSum, hdebits, decimalSum_money ?_ hsum]
    simpa using fun a b hab => (hnonneg _ hab).1
  have hcredit : creditSum lines = money (amounts.map (·.2)).sum := by
    rw [creditSum, hcredits, decimalSum_money ?_ (hbalanced ▸ hsum)]
    simpa using fun b a hab => (hnonneg _ hab).2
  have hstored : ∀ xs : List Money,
      ((xs.map money).map fun x => roundHalfUp (x * 10 ^ 4)).sum = xs.sum := by
    intro xs
    simp [Function.comp_def]
  refine ⟨⟨?_, h.oneSided.mpr hsides, fun line hline => ?_⟩, ?_, ?_, ?_, ?_, ?_⟩
  · rintro rfl
    exact hne (List.map_eq_nil_iff.mp (show [].map _ = _ from h).symm)
  · obtain ⟨a, ha, hd, hc⟩ := h.of_line hline
    rw [PostingLine.Fits, hd, hc, roundHalfUp_money, roundHalfUp_money,
      abs_of_nonneg (hnonneg a ha).1, abs_of_nonneg (hnonneg a ha).2]
    exact ⟨(hle a ha).1.trans_lt hsum, (hle a ha).2.trans_lt hsum⟩
  · rw [hdebit, hcredit, hbalanced]
  · rw [hdebit, Ne, money_eq_zero]
    exact hpos.ne'
  · rw [hdebit, roundHalfUp_money, abs_of_pos hpos]
    exact hsum
  · rw [hdebit, roundHalfUp_money, ← hstored, ← hdebits, List.map_map]
    rfl
  · rw [hdebit, roundHalfUp_money, hbalanced, ← hstored, ← hcredits, List.map_map]
    rfl

end Documents

/-! ## The rules -/

section Split

variable {net tax : Money} {whole part vat : String}

/-- The sum of a net amount and a tax on the debit side, and its parts on the credit side. -/
def debitSplit (whole part vat : String) (net tax : Money) : List PostingLine :=
  [.ofDebit whole (toContext (money net + money tax)), .ofCredit part (money net)] ++
    taxLine (money tax) (.ofCredit vat (money tax))

/-- The same with the sides swapped. -/
def creditSplit (whole part vat : String) (net tax : Money) : List PostingLine :=
  [.ofDebit part (money net)] ++ taxLine (money tax) (.ofDebit vat (money tax)) ++
    [.ofCredit whole (toContext (money net + money tax))]

theorem toContext_split (hnet : 0 ≤ net) (htax : 0 ≤ tax) (hlt : net + tax < 10 ^ 18) :
    toContext (money net + money tax) = money (net + tax) := by
  refine toContext_money_add ?_ ?_
  · rw [abs_of_nonneg hnet]
    linarith
  · rw [abs_of_nonneg htax]
    linarith

theorem debitSplit_carries (hnet : 0 ≤ net) (htax : 0 ≤ tax) (hlt : net + tax < 10 ^ 18) :
    Carries (debitSplit whole part vat net tax)
      ([(net + tax, 0), (0, net)] ++ if tax = 0 then [] else [(0, tax)]) := by
  have hzero : money 0 = 0 := by simp
  rw [debitSplit, toContext_split hnet htax hlt]
  by_cases htax : tax = 0
  · simp [Carries, taxLine, htax, PostingLine.ofDebit, PostingLine.ofCredit, hzero]
  · simp [Carries, taxLine, htax, PostingLine.ofDebit, PostingLine.ofCredit, hzero]

theorem creditSplit_carries (hnet : 0 ≤ net) (htax : 0 ≤ tax) (hlt : net + tax < 10 ^ 18) :
    Carries (creditSplit whole part vat net tax)
      ([(net, 0)] ++ (if tax = 0 then [] else [(tax, 0)]) ++ [(0, net + tax)]) := by
  have hzero : money 0 = 0 := by simp
  rw [creditSplit, toContext_split hnet htax hlt]
  by_cases htax : tax = 0
  · simp [Carries, taxLine, htax, PostingLine.ofDebit, PostingLine.ofCredit, hzero]
  · simp [Carries, taxLine, htax, PostingLine.ofDebit, PostingLine.ofCredit, hzero]

theorem debitSplit_accepted (hnet : 0 < net) (htax : 0 ≤ tax) (hlt : net + tax < 10 ^ 18) :
    Accepted (debitSplit whole part vat net tax) := by
  refine (debitSplit_carries hnet.le htax hlt).accepted (by simp) ?_ ?_ ?_
  · rcases htax.eq_or_lt with rfl | htax
    · simp [OneSide, hnet]
    · simp [OneSide, hnet, htax, htax.ne', add_pos]
  · split
    · simpa using hlt
    · simpa using hlt
  · split
    next hzero => simp [hzero]
    next => simp

theorem creditSplit_accepted (hnet : 0 < net) (htax : 0 ≤ tax) (hlt : net + tax < 10 ^ 18) :
    Accepted (creditSplit whole part vat net tax) := by
  refine (creditSplit_carries hnet.le htax hlt).accepted (by simp) ?_ ?_ ?_
  · rcases htax.eq_or_lt with rfl | htax
    · simp [OneSide, hnet]
    · simp [OneSide, hnet, htax, htax.ne', add_pos]
  · split
    next hzero => simpa [hzero] using hlt
    next => simpa using hlt
  · split
    next hzero => simp [hzero]
    next => simp

theorem net_pos_of_debitSplit (hnet : 0 ≤ net) (htax : 0 ≤ tax) (hlt : net + tax < 10 ^ 18)
    (h : Storable (debitSplit whole part vat net tax)) : 0 < net := by
  have hside := (debitSplit_carries hnet htax hlt).oneSided.mp h.oneSided (0, net) (by simp)
  simpa [OneSide] using hside

theorem net_pos_of_creditSplit (hnet : 0 ≤ net) (htax : 0 ≤ tax) (hlt : net + tax < 10 ^ 18)
    (h : Storable (creditSplit whole part vat net tax)) : 0 < net := by
  have hside := (creditSplit_carries hnet htax hlt).oneSided.mp h.oneSided (net, 0) (by simp)
  simpa [OneSide] using hside

end Split

end Nexora.Accounting
