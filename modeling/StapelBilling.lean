import StapelBilling.AccountBound
import StapelBilling.Announcements
import StapelBilling.Balance
import StapelBilling.Books
import StapelBilling.BundleHolds
import StapelBilling.BundlePeriod
import StapelBilling.BundleReports
import StapelBilling.CacheInvariant
import StapelBilling.Calls
import StapelBilling.CarryTime
import StapelBilling.Checkout
import StapelBilling.Clawback
import StapelBilling.ColumnWidths
import StapelBilling.Comm
import StapelBilling.CompPeriods
import StapelBilling.CompRace
import StapelBilling.CompRanks
import StapelBilling.Conf
import StapelBilling.Conservation
import StapelBilling.CumulativeRefunds
import StapelBilling.Debts
import StapelBilling.Declines
import StapelBilling.Deployment
import StapelBilling.DisputeReversal
import StapelBilling.Endpoints
import StapelBilling.Entitlements
import StapelBilling.Entrances
import StapelBilling.ErasedHolds
import StapelBilling.Erasure
import StapelBilling.EventLog
import StapelBilling.EventOrder
import StapelBilling.EventRace
import StapelBilling.ExpiringFirst
import StapelBilling.Folding
import StapelBilling.Forgiveness
import StapelBilling.Frames
import StapelBilling.GrantOrigins
import StapelBilling.HandlerRegistry
import StapelBilling.HoldBooks
import StapelBilling.HoldLifecycle
import StapelBilling.Holds
import StapelBilling.Homes
import StapelBilling.Isolation
import StapelBilling.KeyRuns
import StapelBilling.LedgerSteps
import StapelBilling.Lifecycle
import StapelBilling.Lots
import StapelBilling.Marks
import StapelBilling.Merge
import StapelBilling.MergeBooks
import StapelBilling.MergeRuns
import StapelBilling.MergeTotals
import StapelBilling.Merging
import StapelBilling.Models
import StapelBilling.Moves
import StapelBilling.NamedGrants
import StapelBilling.Notifications
import StapelBilling.Opening
import StapelBilling.Operations
import StapelBilling.OwnSubscription
import StapelBilling.Ownerless
import StapelBilling.Owners
import StapelBilling.PaidPlans
import StapelBilling.ParkedPath
import StapelBilling.Parking
import StapelBilling.PeriodOrder
import StapelBilling.PlanBundles
import StapelBilling.Preflight
import StapelBilling.ProviderObjects
import StapelBilling.Reconcile
import StapelBilling.ReconcileRace
import StapelBilling.ReconcileReport
import StapelBilling.Refusals
import StapelBilling.Rehoming
import StapelBilling.ReleaseRetries
import StapelBilling.RenewalOrder
import StapelBilling.RepeatedGrants
import StapelBilling.Replays
import StapelBilling.Retries
import StapelBilling.RetryKeys
import StapelBilling.Revenue
import StapelBilling.SentOnce
import StapelBilling.Service
import StapelBilling.ServiceRuns
import StapelBilling.Settlement
import StapelBilling.SoldOnce
import StapelBilling.SpendOrder
import StapelBilling.Spending
import StapelBilling.Staff
import StapelBilling.StaleSweep
import StapelBilling.Store.Alike
import StapelBilling.Store.Apart
import StapelBilling.Store.Claims
import StapelBilling.Store.Custody
import StapelBilling.Store.Growth
import StapelBilling.Store.Journal
import StapelBilling.Store.Leases
import StapelBilling.Store.Newest
import StapelBilling.Store.Outbox
import StapelBilling.Store.Query
import StapelBilling.Store.Races
import StapelBilling.Store.Rounding
import StapelBilling.Store.Table
import StapelBilling.Store.Tally
import StapelBilling.Store.Transactions
import StapelBilling.SubscriptionRows
import StapelBilling.Subscriptions
import StapelBilling.Surplus
import StapelBilling.SweepServes
import StapelBilling.Sweeps
import StapelBilling.TwoCheckouts
import StapelBilling.WalletView
import StapelBilling.Webhooks
import StapelBilling.Wellformed
import StapelBilling.Workers
