import ClientBridge.Library.Book
import ClientBridge.Library.Runs
import ClientBridge.Library.Interleave
import ClientBridge.Library.Dict
import ClientBridge.Library.Apportion
import ClientBridge.Library.Doubles
import ClientBridge.Tax.Engine
import ClientBridge.Tax.Rates
import ClientBridge.Billing.Lines
import ClientBridge.Billing.Pricing
import ClientBridge.Billing.Documents
import ClientBridge.Billing.DocumentRuns
import ClientBridge.Pos.Pricing
import ClientBridge.Pos.PricingParity
import ClientBridge.Ledger.Journals
import ClientBridge.Tax.Remittances
import ClientBridge.Tax.RemittanceRuns
import ClientBridge.Ledger.Store
import ClientBridge.Ledger.Settlement
import ClientBridge.Ledger.Deposits
import ClientBridge.Ledger.Redemptions
import ClientBridge.Earnings.Stages
import ClientBridge.Ledger.Refunds
import ClientBridge.Earnings.Moves
import ClientBridge.Earnings.Clawbacks
import ClientBridge.Earnings.StageInvariant
import ClientBridge.Earnings.ClawbackSteps
import ClientBridge.Earnings.EarningRuns
import ClientBridge.Earnings.ClawbackRuns
import ClientBridge.Earnings.PayRuns
import ClientBridge.Ledger.RefundSplits
import ClientBridge.Ledger.RefundRuns
import ClientBridge.Payments.Refunding
import ClientBridge.Payments.LatePayments
import ClientBridge.Payments.Sales
import ClientBridge.Payments.SalePayments
import ClientBridge.Payments.SaleRuns
import ClientBridge.Payments.Payouts
import ClientBridge.Payments.WebhookEvents
import ClientBridge.Payments.WebhookRuns
import ClientBridge.Core.Commands
import ClientBridge.Core.CommandRuns
import ClientBridge.Ledger.Transactions
import ClientBridge.Ledger.TransactionInvariant
import ClientBridge.Ledger.TransactionRuns
import ClientBridge.Ledger.BalanceDrift
import ClientBridge.Messaging.Deliveries
import ClientBridge.Messaging.DeliveryRuns
import ClientBridge.Catalog.Stock
import ClientBridge.Catalog.StockUnits
import ClientBridge.Catalog.StockRuns
import ClientBridge.Catalog.StockMovements
import ClientBridge.Sync.Outbox
import ClientBridge.Sync.OutboxChain
import ClientBridge.Sync.OutboxInvariant
import ClientBridge.Sync.OutboxSteps
import ClientBridge.Sync.OutboxRuns
import ClientBridge.Sync.Hours
import ClientBridge.Sync.HoursRuns
import ClientBridge.Sync.Receipts
import ClientBridge.Payments.SaleEdits
import ClientBridge.Payments.SaleEditRuns
import ClientBridge.Payments.InvoiceBalances
import ClientBridge.Payments.InvoiceRuns
import ClientBridge.Business.PlanBilling
import ClientBridge.Business.PlanBillingRuns
import ClientBridge.Business.InviteRuns
import ClientBridge.Business.RemovalRuns
import ClientBridge.Payments.DepositWindowRuns
import ClientBridge.Messaging.BroadcastRuns
import ClientBridge.Billing.VisitRuns
import ClientBridge.Reviews.ReplyRuns
import ClientBridge.Sync.ReplicaOpen
import ClientBridge.Tax.FixedSplits
import ClientBridge.Billing.Quotes
import ClientBridge.Ledger.RefundBounds
import ClientBridge.Ledger.SessionRuns
import ClientBridge.Billing.Memberships
import ClientBridge.Scheduling.RecurrencePreviews
import ClientBridge.Tax.FilingPeriods
import ClientBridge.Reviews.RequestRuns
import ClientBridge.Scheduling.DayLayouts
import ClientBridge.Scheduling.ZoneTables
import ClientBridge.Payments.LostPayments
import ClientBridge.Payments.IntentEvents
import ClientBridge.Payments.RefundEventRuns
import ClientBridge.Payments.TipRuns
import ClientBridge.Ledger.SourceChecks
import ClientBridge.Payments.DisputeRuns
import ClientBridge.Scheduling.SlotRuns
import ClientBridge.Scheduling.ClassRuns
import ClientBridge.Scheduling.ClassPlaces
