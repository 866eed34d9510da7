import Nexora.Access.BranchScope
import Nexora.Access.Owners
import Nexora.Accounting.Reports
import Nexora.Audit.Chain
import Nexora.Idempotency.Claim
import Nexora.Inventory.Concurrency
import Nexora.Inventory.Valuation
import Nexora.Pos.Refunds
import Nexora.Bff.Refresh
import Nexora.Accounting.Chart
import Nexora.Accounting.PostingRules
import Nexora.Accounting.SystemAccounts
import Nexora.Sales.Tables
import Nexora.Vat.Register
import Nexora.Numbering.Allocator
import Nexora.Pos.Tables
import Nexora.Purchasing.Tables
import Nexora.Tenant.Database
import Nexora.Sales.Service
import Nexora.Purchasing.Service
import Nexora.Pos.Service
import Nexora.Tenant.Operations
import Nexora.Sales.Writes
import Nexora.Purchasing.Writes
import Nexora.Pos.Writes
import Nexora.Tenant.ControlAccounts
import Nexora.Tenant.StockAndBooks
import Nexora.Tenant.Grni
import Nexora.Tenant.Documents
import Nexora.Tenant.Receivables
import Nexora.Auth.Sessions
import Nexora.Auth.RefreshFamilies
import Nexora.Access.Requests
import Nexora.Access.PermissionCache
import Nexora.Access.Escalation
import Nexora.Numbering.Gapless
import Nexora.Audit.TamperEvidence
import Nexora.Accounting.Requests
import Nexora.Core.TenantGuard
import Nexora.Accounting.Reversals
import Nexora.Foundations.OrderBook
import Nexora.Foundations.DebtBook
import Nexora.Tenant.DocumentRuns
import Nexora.Tenant.Allocations
import Nexora.Tenant.OrderLines
import Nexora.Foundations.Scopes
import Nexora.Inventory.Scopes
import Nexora.Tenant.BranchWrites
import Nexora.Inventory.Replays
import Nexora.Tenant.Restocks
import Nexora.Tenant.Tills
import Nexora.Tenant.FullRefunds
import Nexora.Tenant.Credits
import Nexora.Accounting.Acceptance
import Nexora.Accounting.OpenLedger
import Nexora.Tenant.Drafts
import Nexora.Tenant.FairSales
import Nexora.Tenant.Postable
import Nexora.Foundations.LockedReads
import Nexora.Tenant.TillRuns
import Nexora.Tenant.CashDrawer
import Nexora.Auth.Login
import Nexora.Auth.MfaChallenge
import Nexora.Vat.Filing
import Nexora.Catalog.Categories
import Nexora.Outbox.Dispatcher
import Nexora.Access.Invites
import Nexora.Access.Containment
import Nexora.Foundations.LockOrder
import Nexora.Tenant.StockLocks
import Nexora.Accounting.PeriodSafety
import Nexora.Core.RateLimit
import Nexora.Inventory.ReceiptCost
import Nexora.Tenant.RepeatedLines
import Nexora.Foundations.Calendar
import Nexora.Reports.Aging
import Nexora.Tenant.CancelledOrders
import Nexora.Documents.Service
import Nexora.Documents.Runs
import Nexora.Documents.Citations
import Nexora.Documents.Malware
import Nexora.Documents.Completeness
import Nexora.Tenant.TrackedCosts
import Nexora.Tenant.RefundAmounts
import Nexora.Tenant.Checkouts
import Nexora.Documents.Chunking
import Nexora.Documents.ChunkTexts
import Nexora.Branches.Deactivation
import Nexora.Audit.RecordedColumns
import Nexora.Audit.Sessions
import Nexora.Accounting.GeneralLedger
import Nexora.Foundations.Base64
import Nexora.Foundations.JsonText
import Nexora.Core.Pagination
import Nexora.Foundations.Keyset
import Nexora.Inventory.MovementPages
import Nexora.Reports.Dashboard
import Nexora.Sales.LineRounding
import Nexora.Vat.Pricing
import Nexora.Documents.ChunkHeadings
import Nexora.Accounting.ProfitAndLoss
import Nexora.Reports.GrossProfit
import Nexora.Ai.Grounding
import Nexora.Inventory.TransferRuns
import Nexora.Ai.Copilot
import Nexora.Foundations.RowServices
import Nexora.Crm.Service
import Nexora.Crm.Runs
import Nexora.Tenant.QuotationRuns
import Nexora.Foundations.CanonicalJson
import Nexora.Idempotency.RequestHash
import Nexora.Auth.ResetLinks
import Nexora.Vat.Rates
import Nexora.Tenant.HeldCarts
import Nexora.Catalog.Barcodes
import Nexora.Core.Logging
import Nexora.Reports.Trends
import Nexora.Core.RowSecurity
import Nexora.Core.TenantIsolation
