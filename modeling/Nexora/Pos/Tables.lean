import Nexora.Pos.Refunds
import Nexora.Foundations.KeyedTable

/-!
# The tables of the till

`app/modules/pos/models.py`, for one tenant.  A sale is kept with the `Sale` that `checkout`
computes and `refund` changes, and with its tenders.  Every sale in the table is completed.
Held carts and rendered receipts are left out.
-/

namespace Nexora.Pos

open Nexora Nexora.Catalog Foundations
open Nexora.Accounting (Money Date)

/-- `PosTerminal`. -/
structure PosTerminal where
  id : Uuid
  branchId : Uuid
  warehouseId : Uuid
  isActive : Bool
deriving DecidableEq

inductive SessionStatus where
  | opened
  | closed
deriving DecidableEq, Repr

/-- `PosSession`. -/
structure PosSession where
  id : Uuid
  sessionNumber : String
  terminalId : Uuid
  openedByMembershipId : Uuid
  closedByMembershipId : Option Uuid
  status : SessionStatus
  openingFloat : Money
  expectedCash : Option Money
  countedCash : Option Money
  cashVariance : Option Money
  openingFloat_nonneg : 0 ≤ openingFloat

/-- A row of `sales` with its lines and tenders. -/
structure SaleRow where
  id : Uuid
  saleNumber : String
  sessionId : Uuid
  terminalId : Uuid
  branchId : Uuid
  warehouseId : Uuid
  customerId : Option Uuid
  cashierMembershipId : Uuid
  occurredOn : Date
  sale : Sale
  payments : List TenderInput
deriving DecidableEq

/-- A row of `sale_returns` with its lines. -/
structure SaleReturn where
  id : Uuid
  returnNumber : String
  saleId : Uuid
  sessionId : Uuid
  processedByMembershipId : Uuid
  amount : Money
  occurredOn : Date
  lines : List (Uuid × Quantity)
deriving DecidableEq

/-- The tables of the till. -/
structure PosDb where
  terminals : Table PosTerminal.id
  sessions : Table PosSession.id
  sales : Table SaleRow.id
  returns : Table SaleReturn.id

/-- The tables of a new tenant. -/
def PosDb.empty : PosDb := ⟨.empty _, .empty _, .empty _, .empty _⟩

end Nexora.Pos
