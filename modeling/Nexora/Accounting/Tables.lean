import Nexora.Core.Context
import Nexora.Foundations.KeyedTable
import Mathlib.Algebra.BigOperators.Group.List.Basic
import Mathlib.Algebra.Group.Int.Defs
import Mathlib.Order.Defs.LinearOrder

/-!
# Accounting tables

The rows of `journal_entries`, `journal_entry_lines`, `accounts`, `journals` and
`fiscal_periods` (`app/modules/accounting/models.py` and the migration
`0017_phase_5_accounting`).

`NUMERIC(18,4)` amounts are integers, counted in units of `0.0001`.  The columns
`created_at` and `updated_at` are left out: nothing reads them.
-/

namespace Nexora.Accounting

open Nexora

/-- `Money`, in units of `0.0001`. -/
abbrev Money := Int

/-- Calendar dates, ordered by year, month and day. -/
structure Date where
  year : Nat
  month : Nat
  day : Nat
deriving DecidableEq, Repr

instance : LE Date where
  le a b := a.year < b.year ∨ a.year = b.year ∧
    (a.month < b.month ∨ a.month = b.month ∧ a.day ≤ b.day)

instance : LT Date where
  lt a b := a ≤ b ∧ ¬b ≤ a

instance (a b : Date) : Decidable (a ≤ b) :=
  inferInstanceAs (Decidable (_ ∨ _))

instance : LinearOrder Date where
  le_refl a := .inr ⟨rfl, .inr ⟨rfl, Nat.le_refl _⟩⟩
  le_trans a b c hab hbc := by
    change _ ∨ _ at hab hbc
    show _ ∨ _
    omega
  le_antisymm a b hab hba := by
    change _ ∨ _ at hab hba
    obtain ⟨ya, ma, da⟩ := a
    obtain ⟨yb, mb, db⟩ := b
    simp only [Date.mk.injEq] at hab hba ⊢
    omega
  le_total a b := by
    show (_ ∨ _) ∨ (_ ∨ _)
    omega
  toDecidableLE := inferInstance

/-- `AccountType`. -/
inductive AccountType where
  | asset
  | liability
  | equity
  | revenue
  | expense
deriving DecidableEq, Repr

/-- `EntryStatus`. -/
inductive EntryStatus where
  | draft
  | posted
deriving DecidableEq, Repr

/-- `PeriodStatus`. -/
inductive PeriodStatus where
  | opened
  | closed
  | locked
deriving DecidableEq, Repr

/-- A row of `accounts`. -/
structure Account where
  id : Uuid
  code : String
  name : String
  accountType : AccountType
  parentId : Option Uuid
  isPostable : Bool
  isSystem : Bool
  systemCode : Option String
  currency : String
  isActive : Bool
deriving DecidableEq, Repr

/-- A row of `journals`. -/
structure Journal where
  id : Uuid
  code : String
  name : String
  isSystem : Bool
  isActive : Bool
deriving DecidableEq, Repr

/-- A row of `fiscal_periods`. -/
structure FiscalPeriod where
  id : Uuid
  name : String
  startDate : Date
  endDate : Date
  status : PeriodStatus
deriving DecidableEq, Repr

/-- A row of `journal_entries`. -/
structure JournalEntry where
  id : Uuid
  tenantId : Uuid
  entryNumber : String
  journalId : Uuid
  fiscalPeriodId : Uuid
  entryDate : Date
  status : EntryStatus
  description : String
  sourceType : String
  sourceId : Uuid
  eventType : String
  currency : String
  totalDebit : Money
  totalCredit : Money
  /-- Seconds. -/
  postedAt : Nat
  postedByMembershipId : Uuid
  reversalOfEntryId : Option Uuid
  reversedByEntryId : Option Uuid
  /-- The `JSONB` value, as its canonical text. -/
  entryMetadata : String
deriving DecidableEq, Repr

/-- A row of `journal_entry_lines`. -/
structure JournalEntryLine where
  id : Uuid
  tenantId : Uuid
  journalEntryId : Uuid
  accountId : Uuid
  description : Option String
  debit : Money
  credit : Money
deriving DecidableEq, Repr

/-- The two tables the ledger consists of, with their primary keys. -/
structure JournalDb where
  entries : Foundations.Table JournalEntry.id
  lines : Foundations.Table JournalEntryLine.id

/-- The tables as the migration creates them. -/
def JournalDb.empty : JournalDb := ⟨.empty _, .empty _⟩

/-- The lines of an entry. -/
def JournalDb.linesOf (db : JournalDb) (entryId : Uuid) : List JournalEntryLine :=
  db.lines.rows.filter (·.journalEntryId = entryId)

/-- `COALESCE(sum(debit), 0)`. -/
def sumDebit (lines : List JournalEntryLine) : Money := (lines.map (·.debit)).sum

/-- `COALESCE(sum(credit), 0)`. -/
def sumCredit (lines : List JournalEntryLine) : Money := (lines.map (·.credit)).sum

end Nexora.Accounting
