import DukaPay.Indexer.Delivery
import DukaPay.Backend.Sealing
import DukaPay.Backend.Reorg
import DukaPay.Backend.Coverage
import DukaPay.Backend.EventLog
import DukaPay.Backend.BorrowerEvents
import DukaPay.Backend.AtMostOnce
import DukaPay.Backend.AuditLogs
import DukaPay.Backend.ScoreDecay
import DukaPay.Frontend.Csv
import DukaPay.Backend.Scopes
import DukaPay.Backend.FloatApprovals
import DukaPay.Backend.FloatLimits
import DukaPay.Backend.Screening
import DukaPay.Backend.WebhookAttempts
import DukaPay.Backend.RetryIsolation
import DukaPay.Money.ProRata
import DukaPay.LendingPool.Deposits
import DukaPay.LendingPool.Settlement
import DukaPay.Protocol.Losses
import DukaPay.Protocol.Lifecycle
import DukaPay.Protocol.Terms
import DukaPay.Protocol.Slots
import DukaPay.AgentVault.Float
import DukaPay.Protocol.Guards
import DukaPay.Oracle.Manipulation
import DukaPay.Oracle.Smoothing
import DukaPay.CircuitBreaker.History
import DukaPay.CircuitBreaker.Overrides
import DukaPay.Governance.Messages
import DukaPay.RemittanceNft.Scores
import DukaPay.RemittanceNft.Burned
import DukaPay.Backend.Retries
import DukaPay.Backend.Saga
import DukaPay.Backend.EventStream
import DukaPay.Backend.RateLimit
import DukaPay.Backend.RepaymentPreview
import DukaPay.Protocol.Liquidation
import DukaPay.Backend.Payments
import DukaPay.Backend.PiiTokens
import DukaPay.Backend.LoanStatus
import DukaPay.Backend.CheckerLock
import DukaPay.Backend.PauseMirror
import DukaPay.Backend.Tenants
import DukaPay.Backend.Disputes
import DukaPay.AgentRegistry
