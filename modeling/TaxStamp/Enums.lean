import Mathlib.Data.List.Basic
import Mathlib.Tactic.Common

/-!
# State machines and enumerations

The statuses of orders, stamps, batches, payment intents, receipts and ledger intents,
with the transition tables the services consult. A status column holds one of these
values because of its CHECK constraint, so the columns are modelled by the types
themselves; `value` is the text the database and the documents carry.
-/

namespace TaxStamp

/-- The lifecycle of an order. -/
inductive OrderStatus
  | submitted
  | compliancePending
  | complianceRejected
  | awaitingApproval
  | approved
  | rejected
  | awaitingPayment
  | paid
  | issuing
  | issued
  | cancelled
  deriving DecidableEq, Repr

/-- The stored text of an order status. -/
def OrderStatus.value : OrderStatus → String
  | submitted => "submitted"
  | compliancePending => "compliance_pending"
  | complianceRejected => "compliance_rejected"
  | awaitingApproval => "awaiting_approval"
  | approved => "approved"
  | rejected => "rejected"
  | awaitingPayment => "awaiting_payment"
  | paid => "paid"
  | issuing => "issuing"
  | issued => "issued"
  | cancelled => "cancelled"

/-- The transitions an order may take from each status. -/
def orderTransitions : OrderStatus → List OrderStatus
  | .submitted => [.compliancePending, .awaitingApproval, .cancelled]
  | .compliancePending => [.awaitingApproval, .complianceRejected, .cancelled]
  | .complianceRejected => [.cancelled]
  | .awaitingApproval => [.approved, .rejected, .cancelled]
  | .approved => [.awaitingPayment, .cancelled]
  | .rejected => []
  | .awaitingPayment => [.paid, .cancelled]
  | .paid => [.issuing]
  | .issuing => [.issued]
  | .issued => []
  | .cancelled => []

/-- The lifecycle of a stamp. -/
inductive StampStatus
  | issued
  | active
  | void
  | expired
  deriving DecidableEq, Repr

/-- The stored text of a stamp status. -/
def StampStatus.value : StampStatus → String
  | issued => "issued"
  | active => "active"
  | void => "void"
  | expired => "expired"

/-- The transitions a stamp may take from each status. -/
def stampTransitions : StampStatus → List StampStatus
  | .issued => [.active, .void, .expired]
  | .active => [.void, .expired]
  | .void => []
  | .expired => [.void]

/-- The lifecycle of a stamp batch. -/
inductive BatchStatus
  | pending
  | issuing
  | issued
  | inspectionFailed
  deriving DecidableEq, Repr

/-- The stored text of a batch status. -/
def BatchStatus.value : BatchStatus → String
  | pending => "pending"
  | issuing => "issuing"
  | issued => "issued"
  | inspectionFailed => "inspection_failed"

/-- The lifecycle of a payment intent. -/
inductive PaymentIntentStatus
  | awaitingPayment
  | settled
  | mismatched
  | cancelled
  deriving DecidableEq, Repr

/-- The stored form of a status. -/
def PaymentIntentStatus.value : PaymentIntentStatus → String
  | awaitingPayment => "awaiting_payment"
  | settled => "settled"
  | mismatched => "mismatched"
  | cancelled => "cancelled"

/-- How a remittance was classified. -/
inductive ReceiptStatus
  | matched
  | amountMismatch
  | unknownReference
  | duplicate
  deriving DecidableEq, Repr

/-- The stored text of a receipt status. -/
def ReceiptStatus.value : ReceiptStatus → String
  | matched => "matched"
  | amountMismatch => "amount_mismatch"
  | unknownReference => "unknown_reference"
  | duplicate => "duplicate"

/-- The lifecycle of a TigerBeetle ledger intent. -/
inductive TigerBeetleLedgerIntentState
  | ready
  | submissionUncertain
  | externalConfirmed
  | posted
  | rejected
  | quarantined
  deriving DecidableEq, Repr

/-- The stored text of a ledger intent state. -/
def TigerBeetleLedgerIntentState.value : TigerBeetleLedgerIntentState → String
  | ready => "ready"
  | submissionUncertain => "submission_uncertain"
  | externalConfirmed => "external_confirmed"
  | posted => "posted"
  | rejected => "rejected"
  | quarantined => "quarantined"

/-- The transitions a ledger intent may take from each state. -/
def tigerbeetleLedgerIntentTransitions :
    TigerBeetleLedgerIntentState → List TigerBeetleLedgerIntentState
  | .ready => [.submissionUncertain, .rejected, .quarantined]
  | .submissionUncertain => [.submissionUncertain, .externalConfirmed, .rejected, .quarantined]
  | .externalConfirmed => [.posted, .quarantined]
  | .posted => []
  | .rejected => []
  | .quarantined => []

/-- The level at which an approval is given. -/
inductive ApprovalLevel
  | analyst
  | supervisor
  deriving DecidableEq, Repr

/-- The stored text of an approval level. -/
def ApprovalLevel.value : ApprovalLevel → String
  | analyst => "analyst"
  | supervisor => "supervisor"

/-- The outcome of an approval. -/
inductive ApprovalDecision
  | approved
  | rejected
  deriving DecidableEq, Repr

/-- The stored text of an approval decision. -/
def ApprovalDecision.value : ApprovalDecision → String
  | approved => "approved"
  | rejected => "rejected"

/-- The risk tier of a company, copied to its orders. -/
inductive RiskTier
  | low
  | medium
  | high
  deriving DecidableEq, Repr

/-- The stored form of a risk tier. -/
def RiskTier.value : RiskTier → String
  | low => "low"
  | medium => "medium"
  | high => "high"

/-- The approval levels a risk tier demands. -/
def requiredApprovals : RiskTier → List ApprovalLevel
  | .low => [.analyst]
  | .medium => [.analyst, .supervisor]
  | .high => [.analyst, .supervisor]

/-- The roles of authenticated principals. -/
inductive Role
  | requester
  | analyst
  | supervisor
  | treasury
  | operator
  | auditor
  | admin
  | device
  deriving DecidableEq, Repr

/-- The stored text of a role. -/
def Role.value : Role → String
  | requester => "requester"
  | analyst => "analyst"
  | supervisor => "supervisor"
  | treasury => "treasury"
  | operator => "operator"
  | auditor => "auditor"
  | admin => "admin"
  | device => "device"

/-- The state of a company's business verification. -/
inductive KybStatus
  | unverified
  | verified
  | suspended
  deriving DecidableEq, Repr

/-- The stored text of a business verification status. -/
def KybStatus.value : KybStatus → String
  | unverified => "unverified"
  | verified => "verified"
  | suspended => "suspended"

/-- The table demands at least one approval from every tier. -/
theorem requiredApprovals_ne_nil (tier : RiskTier) : requiredApprovals tier ≠ [] := by
  cases tier <;> simp [requiredApprovals]

/-- An order becomes paid only from awaiting payment. -/
theorem paid_mem_orderTransitions {status : OrderStatus} :
    .paid ∈ orderTransitions status ↔ status = .awaitingPayment := by
  cases status <;> simp [orderTransitions]

/-- The statuses from which an order can be cancelled. -/
theorem cancelled_mem_orderTransitions {status : OrderStatus} :
    .cancelled ∈ orderTransitions status ↔
      status = .submitted ∨ status = .compliancePending ∨ status = .complianceRejected ∨
        status = .awaitingApproval ∨ status = .approved ∨ status = .awaitingPayment := by
  cases status <;> simp [orderTransitions]

/-- A stamp becomes active only from issued. -/
theorem active_mem_stampTransitions {status : StampStatus} :
    .active ∈ stampTransitions status ↔ status = .issued := by
  cases status <;> simp [stampTransitions]

end TaxStamp
