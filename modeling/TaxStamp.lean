import TaxStamp.Idempotency
import TaxStamp.Webhook
import TaxStamp.Gates
import TaxStamp.Handlers
import TaxStamp.Acceptance
import TaxStamp.Agreement
import TaxStamp.Anchoring
import TaxStamp.AppendOnly
import TaxStamp.CanonicalForm
import TaxStamp.Conservation
import TaxStamp.Credentials
import TaxStamp.Defectives
import TaxStamp.Detection
import TaxStamp.Draining
import TaxStamp.LedgerTotals
import TaxStamp.Recovery
import TaxStamp.Expiry
import TaxStamp.ExternalSettlements
import TaxStamp.FourEyes
import TaxStamp.Quality
import TaxStamp.Failures
import TaxStamp.FalseAlarms
import TaxStamp.History
import TaxStamp.AuditCoverage
import TaxStamp.Authenticity
import TaxStamp.Nonces
import TaxStamp.PaidOrders
import TaxStamp.Pricing
import TaxStamp.RateLimits
import TaxStamp.Projection
import TaxStamp.Refusals
import TaxStamp.Requests
import TaxStamp.Replays
import TaxStamp.SerialGrammar
import TaxStamp.SerialSpace
import TaxStamp.SingleUse
import TaxStamp.Stocktake
import TaxStamp.Termination
import TaxStamp.Tariffs
import TaxStamp.Tenancy
import TaxStamp.TerminalIntents
import TaxStamp.LedgerParity
import TaxStamp.LedgerRequests
import TaxStamp.MajorUnits
import TaxStamp.Merkle
import TaxStamp.ProxyTrust
import TaxStamp.EncryptionCheck
import TaxStamp.Revenue
import TaxStamp.SandboxReconciliation
import TaxStamp.MoneyText
