import Nexora.Accounting.Reports

/-!
# Posting rules

`app/modules/accounting/posting_rules.py`: the lines of every entry that the operational
modules post.  Amounts of documents have four decimals, as their columns do.  Costs are
products of quantities and unit costs and have up to twelve, and a payment is whatever the
caller passes on.

A rule that splits an amount over several lines only ever splits it into amounts of
documents, and it uses one cost on both sides, so the lines of a rule still balance when
every one of them is rounded on its own (`Rule.balanced`).
-/

namespace Nexora.Accounting

open Nexora Foundations

/-! ## The rules -/

/-- The decimal of an amount with four places. -/
def money (amount : Money) : ℚ := amount / 10 ^ 4

/-- `PostingLine(code, debit=amount)`. -/
def PostingLine.ofDebit (systemCode : String) (amount : ℚ) : PostingLine :=
  ⟨systemCode, amount, 0, none⟩

/-- `PostingLine(code, credit=amount)`. -/
def PostingLine.ofCredit (systemCode : String) (amount : ℚ) : PostingLine :=
  ⟨systemCode, 0, amount, none⟩

/-- `if tax: lines.append(line)`. -/
def taxLine (tax : ℚ) (line : PostingLine) : List PostingLine := if tax = 0 then [] else [line]

namespace PostingRules

/-- `cogs_recognition`. -/
def cogsRecognition (cost : ℚ) : List PostingLine :=
  [.ofDebit "COGS" cost, .ofCredit "INVENTORY" cost]

/-- `cash_sale`. -/
def cashSale (net tax cost : ℚ) : List PostingLine × List PostingLine :=
  ([.ofDebit "CASH" (toContext (net + tax)), .ofCredit "SALES_REVENUE" net] ++
      taxLine tax (.ofCredit "VAT_OUTPUT" tax),
    [.ofDebit "COGS" cost, .ofCredit "INVENTORY" cost])

/-- `credit_sale`. -/
def creditSale (net tax : ℚ) : List PostingLine :=
  [.ofDebit "AR_CONTROL" (toContext (net + tax)), .ofCredit "SALES_REVENUE" net] ++
    taxLine tax (.ofCredit "VAT_OUTPUT" tax)

/-- The account of a payment. -/
def tenderAccount (cash : Bool) : String := if cash then "CASH" else "BANK"

/-- `customer_payment`. -/
def customerPayment (amount : ℚ) (cash : Bool) : List PostingLine :=
  [.ofDebit (tenderAccount cash) amount, .ofCredit "AR_CONTROL" amount]

/-- `sales_return`. -/
def salesReturn (net tax cost : ℚ) : List PostingLine × Option (List PostingLine) :=
  ([.ofDebit "SALES_RETURNS" net] ++ taxLine tax (.ofDebit "VAT_OUTPUT" tax) ++
      [.ofCredit "AR_CONTROL" (toContext (net + tax))],
    if cost = 0 then none else some [.ofDebit "INVENTORY" cost, .ofCredit "COGS" cost])

/-- `pos_refund`. -/
def posRefund (net tax cost : ℚ) (restock : Bool) : List PostingLine × Option (List PostingLine) :=
  ([.ofDebit "SALES_RETURNS" net] ++ taxLine tax (.ofDebit "VAT_OUTPUT" tax) ++
      [.ofCredit "CASH" (toContext (net + tax))],
    if restock ∧ cost ≠ 0 then some [.ofDebit "INVENTORY" cost, .ofCredit "COGS" cost] else none)

/-- `goods_receipt`. -/
def goodsReceipt (cost : ℚ) : List PostingLine :=
  [.ofDebit "INVENTORY" cost, .ofCredit "GRNI" cost]

/-- `supplier_bill`. -/
def supplierBill (goodsCost tax : ℚ) : List PostingLine :=
  [.ofDebit "GRNI" goodsCost] ++ taxLine tax (.ofDebit "VAT_INPUT" tax) ++
    [.ofCredit "AP_CONTROL" (toContext (goodsCost + tax))]

/-- `supplier_payment`. -/
def supplierPayment (amount : ℚ) (cash : Bool) : List PostingLine :=
  [.ofDebit "AP_CONTROL" amount, .ofCredit (tenderAccount cash) amount]

end PostingRules

/-- The lines that a rule builds. -/
inductive Rule : List PostingLine → Prop
  | cogsRecognition (cost : ℚ) : Rule (PostingRules.cogsRecognition cost)
  | cashSaleRevenue (net tax : Money) (cost : ℚ) : Rule (PostingRules.cashSale (money net) (money tax) cost).1
  | cashSaleCost (net tax cost : ℚ) : Rule (PostingRules.cashSale net tax cost).2
  | creditSale (net tax : Money) : Rule (PostingRules.creditSale (money net) (money tax))
  | customerPayment (amount : ℚ) (cash : Bool) : Rule (PostingRules.customerPayment amount cash)
  | salesReturnRevenue (net tax : Money) (cost : ℚ) :
      Rule (PostingRules.salesReturn (money net) (money tax) cost).1
  | salesReturnCost (net tax cost : ℚ) {lines : List PostingLine}
      (h : (PostingRules.salesReturn net tax cost).2 = some lines) : Rule lines
  | posRefundRevenue (net tax : Money) (cost : ℚ) (restock : Bool) :
      Rule (PostingRules.posRefund (money net) (money tax) cost restock).1
  | posRefundCost (net tax cost : ℚ) (restock : Bool) {lines : List PostingLine}
      (h : (PostingRules.posRefund net tax cost restock).2 = some lines) : Rule lines
  | goodsReceipt (cost : ℚ) : Rule (PostingRules.goodsReceipt cost)
  | supplierBill (goodsCost tax : Money) : Rule (PostingRules.supplierBill (money goodsCost) (money tax))
  | supplierPayment (amount : ℚ) (cash : Bool) : Rule (PostingRules.supplierPayment amount cash)

/-! ## Rounding line by line -/

/-- The line in its columns: what is stored is debit less credit. -/
def PostingLine.amount (line : PostingLine) : Money :=
  roundHalfUp (line.debit * 10 ^ 4) - roundHalfUp (line.credit * 10 ^ 4)

/-- The line fits its columns. -/
def PostingLine.Fits (line : PostingLine) : Prop :=
  |roundHalfUp (line.debit * 10 ^ 4)| < 10 ^ 18 ∧ |roundHalfUp (line.credit * 10 ^ 4)| < 10 ^ 18

instance (line : PostingLine) : Decidable line.Fits := inferInstanceAs (Decidable (_ ∧ _))

@[simp] theorem roundHalfUp_money (amount : Money) : roundHalfUp (money amount * 10 ^ 4) = amount := by
  have h : money amount * 10 ^ 4 = (amount : ℚ) := by
    unfold money
    field_simp
  rw [h, roundHalfUp_intCast]

@[simp] theorem money_eq_zero {amount : Money} : money amount = 0 ↔ amount = 0 := by
  simp [money]

theorem money_nonneg {amount : Money} : 0 ≤ money amount ↔ 0 ≤ amount := by
  rw [money, le_div_iff₀ (by norm_num), zero_mul]
  exact Int.cast_nonneg_iff

theorem money_pos {amount : Money} : 0 < money amount ↔ 0 < amount := by
  rw [money, lt_div_iff₀ (by norm_num), zero_mul]
  exact Int.cast_pos

theorem money_add (a b : Money) : money (a + b) = money a + money b := by
  unfold money
  push_cast
  ring

@[simp] theorem systemCode_ofDebit (code : String) (x : ℚ) :
    (PostingLine.ofDebit code x).systemCode = code := rfl

@[simp] theorem systemCode_ofCredit (code : String) (x : ℚ) :
    (PostingLine.ofCredit code x).systemCode = code := rfl

@[simp] theorem amount_ofDebit (code : String) (x : ℚ) :
    (PostingLine.ofDebit code x).amount = roundHalfUp (x * 10 ^ 4) := by
  simp [PostingLine.amount, PostingLine.ofDebit]

@[simp] theorem amount_ofCredit (code : String) (x : ℚ) :
    (PostingLine.ofCredit code x).amount = -roundHalfUp (x * 10 ^ 4) := by
  simp [PostingLine.amount, PostingLine.ofCredit]

/-- Amounts of documents add up exactly. -/
theorem toContext_money_add {a b : Money} (ha : |a| < 10 ^ 18) (hb : |b| < 10 ^ 18) :
    toContext (money a + money b) = money (a + b) := by
  rw [← money_add]
  refine toContext_of_digits (n := a + b) (k := -4) ?_ ?_
  · simp [money, zpow_neg, div_eq_mul_inv]
  · rw [abs_lt] at ha hb ⊢
    constructor <;> linarith

/-- The sum of a net amount and a tax, rounded, is the sum of the amounts. -/
theorem roundHalfUp_money_add {net tax : Money} (hnet : |net| < 10 ^ 18) (htax : |tax| < 10 ^ 18) :
    roundHalfUp (toContext (money net + money tax) * 10 ^ 4) = net + tax := by
  rw [toContext_money_add hnet htax, roundHalfUp_money]

theorem sum_taxLine {tax : Money} {line : PostingLine} (h : tax = 0 → line.amount = 0) :
    ((taxLine (money tax) line).map (·.amount)).sum = line.amount := by
  by_cases htax : tax = 0
  · simp [taxLine, htax, h htax, money]
  · simp [taxLine, htax]

theorem fits_ofDebit {code : String} {amount : Money} :
    (PostingLine.ofDebit code (money amount)).Fits → |amount| < 10 ^ 18 := by
  intro h
  simpa [PostingLine.ofDebit] using h.1

theorem fits_ofCredit {code : String} {amount : Money} :
    (PostingLine.ofCredit code (money amount)).Fits → |amount| < 10 ^ 18 := by
  intro h
  simpa [PostingLine.ofCredit] using h.2

/-- A tax line is left out only where the tax is zero. -/
theorem fits_taxLine {tax : Money} {line : PostingLine} (hline : line.Fits → |tax| < 10 ^ 18)
    (h : ∀ l ∈ taxLine (money tax) line, l.Fits) : |tax| < 10 ^ 18 := by
  by_cases htax : tax = 0
  · simp [htax]
  · exact hline (h line (by simp [taxLine, htax]))

/-- An amount split into a net amount and a tax, each rounded on its own. -/
theorem sum_split (net tax : Money) (whole part vat : PostingLine) (sign : Money)
    (hwhole : whole.amount = sign * roundHalfUp (toContext (money net + money tax) * 10 ^ 4))
    (hpart : part.amount = -sign * net) (hvat : vat.amount = -sign * tax)
    (hnet : |net| < 10 ^ 18) (htax : |tax| < 10 ^ 18) :
    whole.amount + part.amount + ((taxLine (money tax) vat).map (·.amount)).sum = 0 := by
  rw [sum_taxLine (fun h => by rw [hvat, h, mul_zero]), hwhole, hpart, hvat,
    roundHalfUp_money_add hnet htax]
  ring

/-- The amounts of the lines of a rule, each rounded on its own, cancel. -/
theorem Rule.sum_amount {lines : List PostingLine} (h : Rule lines)
    (hfits : ∀ line ∈ lines, line.Fits) : (lines.map (·.amount)).sum = 0 := by
  cases h with
  | cogsRecognition cost => simp [PostingRules.cogsRecognition]
  | cashSaleRevenue net tax cost =>
      simp only [PostingRules.cashSale, List.mem_append, List.mem_cons, or_imp, forall_and,
        forall_eq] at hfits
      have hsplit := sum_split net tax
        (.ofDebit "CASH" (toContext (money net + money tax)))
        (.ofCredit "SALES_REVENUE" (money net)) (.ofCredit "VAT_OUTPUT" (money tax)) 1
        (by simp) (by simp) (by simp)
        (fits_ofCredit hfits.1.2.1) (fits_taxLine fits_ofCredit hfits.2)
      simpa [PostingRules.cashSale, add_assoc] using hsplit
  | cashSaleCost net tax cost => simp [PostingRules.cashSale]
  | creditSale net tax =>
      simp only [PostingRules.creditSale, List.mem_append, List.mem_cons, or_imp, forall_and,
        forall_eq] at hfits
      have hsplit := sum_split net tax
        (.ofDebit "AR_CONTROL" (toContext (money net + money tax)))
        (.ofCredit "SALES_REVENUE" (money net)) (.ofCredit "VAT_OUTPUT" (money tax)) 1
        (by simp) (by simp) (by simp)
        (fits_ofCredit hfits.1.2.1) (fits_taxLine fits_ofCredit hfits.2)
      simpa [PostingRules.creditSale, add_assoc] using hsplit
  | customerPayment amount cash => simp [PostingRules.customerPayment]
  | salesReturnRevenue net tax cost =>
      simp only [PostingRules.salesReturn, List.mem_append, List.mem_cons, or_imp, forall_and,
        forall_eq] at hfits
      have hsplit := sum_split net tax
        (.ofCredit "AR_CONTROL" (toContext (money net + money tax)))
        (.ofDebit "SALES_RETURNS" (money net)) (.ofDebit "VAT_OUTPUT" (money tax)) (-1)
        (by simp) (by simp) (by simp)
        (fits_ofDebit hfits.1.1.1) (fits_taxLine fits_ofDebit hfits.1.2)
      simpa [PostingRules.salesReturn, add_comm, add_left_comm, add_assoc] using hsplit
  | salesReturnCost net tax cost h =>
      simp only [PostingRules.salesReturn, Option.ite_none_left_eq_some, Option.some.injEq] at h
      simp [← h.2]
  | posRefundRevenue net tax cost restock =>
      simp only [PostingRules.posRefund, List.mem_append, List.mem_cons, or_imp, forall_and,
        forall_eq] at hfits
      have hsplit := sum_split net tax
        (.ofCredit "CASH" (toContext (money net + money tax)))
        (.ofDebit "SALES_RETURNS" (money net)) (.ofDebit "VAT_OUTPUT" (money tax)) (-1)
        (by simp) (by simp) (by simp)
        (fits_ofDebit hfits.1.1.1) (fits_taxLine fits_ofDebit hfits.1.2)
      simpa [PostingRules.posRefund, add_comm, add_left_comm, add_assoc] using hsplit
  | posRefundCost net tax cost restock h =>
      simp only [PostingRules.posRefund, Option.ite_none_right_eq_some, Option.some.injEq] at h
      simp [← h.2]
  | goodsReceipt cost => simp [PostingRules.goodsReceipt]
  | supplierBill goodsCost tax =>
      simp only [PostingRules.supplierBill, List.mem_append, List.mem_cons, or_imp, forall_and,
        forall_eq] at hfits
      have hsplit := sum_split goodsCost tax
        (.ofCredit "AP_CONTROL" (toContext (money goodsCost + money tax)))
        (.ofDebit "GRNI" (money goodsCost)) (.ofDebit "VAT_INPUT" (money tax)) (-1)
        (by simp) (by simp) (by simp)
        (fits_ofDebit hfits.1.1.1) (fits_taxLine fits_ofDebit hfits.1.2)
      simpa [PostingRules.supplierBill, add_comm, add_left_comm, add_assoc] using hsplit
  | supplierPayment amount cash => simp [PostingRules.supplierPayment]

/-- The debits of lines as they are stored. -/
def storedDebit (lines : List PostingLine) : Money :=
  (lines.map fun line => roundHalfUp (line.debit * 10 ^ 4)).sum

/-- The credits of lines as they are stored. -/
def storedCredit (lines : List PostingLine) : Money :=
  (lines.map fun line => roundHalfUp (line.credit * 10 ^ 4)).sum

theorem storedDebit_sub_storedCredit (lines : List PostingLine) :
    storedDebit lines - storedCredit lines = (lines.map (·.amount)).sum := by
  induction lines with
  | nil => rfl
  | cons line lines ih =>
      simp only [storedDebit, storedCredit, List.map_cons, List.sum_cons] at ih ⊢
      rw [← ih, PostingLine.amount]
      ring

theorem Rule.balanced {lines : List PostingLine} (h : Rule lines)
    (hfits : ∀ line ∈ lines, line.Fits) : storedDebit lines = storedCredit lines := by
  have hsum := storedDebit_sub_storedCredit lines
  rw [h.sum_amount hfits] at hsum
  exact sub_eq_zero.mp hsum

/-! ## Trial balance -/

/-- The total debit of a trial balance. -/
def totalDebit (rows : List (Account × Money × Money)) : Money := (rows.map (·.2.1)).sum

/-- The total credit of a trial balance. -/
def totalCredit (rows : List (Account × Money × Money)) : Money := (rows.map (·.2.2)).sum

/-- Every row is of one of the five account types. -/
theorem totalDebit_sub_totalCredit (rows : List (Account × Money × Money)) :
    totalDebit rows - totalCredit rows =
      typeTotal rows .asset + typeTotal rows .liability + typeTotal rows .equity +
        typeTotal rows .revenue + typeTotal rows .expense := by
  induction rows with
  | nil => rfl
  | cons row rows ih =>
      have hrow : ∀ t, typeTotal (row :: rows) t =
          (if row.1.accountType = t then row.2.1 - row.2.2 else 0) + typeTotal rows t := by
        intro t
        by_cases h : row.1.accountType = t
        · simp [typeTotal, h]
        · simp [typeTotal, h]
      simp only [totalDebit, totalCredit, List.map_cons, List.sum_cons] at ih ⊢
      rw [add_sub_add_comm, ih]
      simp only [hrow]
      cases row.1.accountType with
      | asset => simp; abel
      | liability => simp; abel
      | equity => simp; abel
      | revenue => simp; abel
      | expense => simp; abel

/-- In every ledger the service reaches, the trial balance of any dates balances. -/
theorem LedgerDb.Sound.trialBalance {db : LedgerDb} (hs : db.Sound) (first last : Date) :
    totalDebit (db.trialBalance first last) = totalCredit (db.trialBalance first last) := by
  have htypes := totalDebit_sub_totalCredit (db.trialBalance first last)
  rw [hs.sum_typeTotal] at htypes
  exact sub_eq_zero.mp htypes

end Nexora.Accounting
