import TaxStamp.Compliance
import TaxStamp.Outbox
import TaxStamp.Audit

/-!
# Outbox message handlers

A handler runs inside the relay's delivery transaction. Notifications and anchored batches
are recorded in the audit trail there; the issuance of stamps and the ledger transfers
ignore that transaction and run in transactions of their own, so that only whether they
succeeded is an input here.
-/

namespace TaxStamp

open Lib

/-- The actor of the handlers' audit events. -/
def systemWorker : AuditActor := ⟨none, "system:worker", "operator", none⟩

/-- The acknowledgement of an anchored root. -/
structure AnchorReceipt where
  root : String
  externalReference : String
  anchoredAt : String
  deriving DecidableEq, Repr

/-- Submit a root for external notarisation. -/
def anchor (client : ProviderClient) (batchId root : String) : Except Fault AnchorReceipt := do
  client.requireConfigured
  let response ← client.postJson "/v1/anchors" [("batch_id", .str batchId), ("root", .str root)]
  let acknowledged ← requireStr response "root"
  let externalReference ← requireStr response "reference"
  let anchoredAt ← requireStr response "anchored_at"
  return ⟨acknowledged, externalReference, anchoredAt⟩

/-- The identifier with a printed form. -/
def Uuid.parse (text : String) : Except Fault Uuid :=
  match text.toNat? with
  | some val => .ok ⟨val⟩
  | none => .error (.valueError "badly formed hexadecimal UUID string")

/-- What a delivery gets from outside its transaction: the anchoring service, whether the transactions the
handler runs on its own have succeeded, whether the projection was published, its random draws and its
readings of the clock. -/
structure RelayDelivery where
  anchorClient : ProviderClient
  outside : Except Fault Unit
  published : Except Fault Unit
  draws : Draws
  clock : ℕ → Time

section Handlers

variable (settings : Settings) (delivery : RelayDelivery) (payload : JsonObject)

/-- Issue the stamps an order paid for, in transactions of its own. -/
def handleIssueStamps : Session Unit := do
  let orderId ← Tx.lift (requireStr payload "order_id")
  let _ ← Tx.lift (Uuid.parse orderId)
  Tx.lift delivery.outside

/-- Submit the root of a batch for notarisation and record the acknowledgement. -/
def handleAnchorBatch : Session Unit := do
  let text ← Tx.lift (requireStr payload "batch_id")
  let batchId ← Tx.lift (Uuid.parse text)
  let root ← Tx.lift (requireStr payload "merkle_root")
  let receipt ← Tx.lift (anchor delivery.anchorClient batchId.str root)
  let batch ← fetch Tables.stampBatches (fun b => b.id = batchId) .noResultFound
  let _ ← recordAuditEvent settings delivery.draws (delivery.draws.uuid 0) systemWorker
    { action := "batch.anchored"
      targetType := "stamp_batch"
      targetId := batch.id.str
      outcome := .success
      afterState := some [("merkle_root", .str receipt.root),
        ("external_reference", .str receipt.externalReference),
        ("anchored_at", .str receipt.anchoredAt)] }
    (delivery.clock 0)
  return ()

/-- Record an operational notification in the audit trail. -/
def handleNotify : Session Unit := do
  let targetId ← Tx.lift (requireStr payload
    (if (payload.lookup "order_id").isSome then "order_id" else "receipt_id"))
  let _ ← recordAuditEvent settings delivery.draws (delivery.draws.uuid 0) systemWorker
    { action := "notification.recorded"
      targetType := "notification"
      targetId := targetId
      outcome := .success
      afterState := some payload }
    (delivery.clock 0)
  return ()

/-- Record a mismatched payment that awaits review. -/
def handleMismatchReview : Session Unit := do
  let _ ← Tx.lift (requireInt payload "expected_minor")
  let _ ← Tx.lift (requireInt payload "amount_minor")
  let _ ← Tx.lift (requireStr payload "receipt_id")
  handleNotify settings delivery payload

/-- Process a transfer outside the relay's transaction. -/
def handleTigerbeetleTransfer : Session Unit := do
  let intentId ← Tx.lift (requireStr payload "intent_id")
  let _ ← Tx.lift (Uuid.parse intentId)
  Tx.lift delivery.outside

/-- Run the handler registered for an event type. -/
def handle (eventType : String) : Session Unit :=
  if eventType = "order.issue_stamps" then handleIssueStamps delivery payload
  else if eventType = "batch.anchor_requested" then handleAnchorBatch settings delivery payload
  else if eventType = "order.awaiting_payment" then handleNotify settings delivery payload
  else if eventType = "payment.mismatch_requires_review" then handleMismatchReview settings delivery payload
  else if eventType = "tigerbeetle.transfer_requested" then handleTigerbeetleTransfer delivery payload
  else Tx.refuse (.lookupError ("no handler registered for " ++ eventType))

end Handlers

/-- What a handler's part of the delivery transaction does: nothing, or it appends one audit event. -/
def HandlerEffect (settings : Settings) (delivery : RelayDelivery) (db db' : Db) : Prop :=
  db = db' ∨ ∃ record event, recordAuditEvent settings delivery.draws (delivery.draws.uuid 0) systemWorker record
    (delivery.clock 0) db = .ok (event, db')

section Effects

variable {settings : Settings} {delivery : RelayDelivery} {payload : JsonObject} {u : Unit} {db db' : Db}

/-- A notification appends its audit event. -/
theorem handleNotify_ok (h : handleNotify settings delivery payload db = .ok (u, db')) :
    HandlerEffect settings delivery db db' := by
  simp only [handleNotify, Tx.bind_ok, Tx.lift_ok, Tx.pure_ok] at h
  obtain ⟨targetId, db₁, ⟨-, rfl⟩, event, db₂, haudit, -, rfl⟩ := h
  exact .inr ⟨_, event, haudit⟩

/-- An anchored batch appends its audit event. -/
theorem handleAnchorBatch_ok (h : handleAnchorBatch settings delivery payload db = .ok (u, db')) :
    HandlerEffect settings delivery db db' := by
  simp only [handleAnchorBatch, Tx.bind_ok, Tx.lift_ok, fetch_ok, Tx.pure_ok] at h
  obtain ⟨text, db₁, ⟨-, rfl⟩, batchId, db₂, ⟨-, rfl⟩, root, db₃, ⟨-, rfl⟩, receipt, db₄, ⟨-, rfl⟩, batch, db₅,
    ⟨-, rfl⟩, event, db₆, haudit, -, rfl⟩ := h
  exact .inr ⟨_, event, haudit⟩

/-- Every handler has that effect. -/
theorem handle_ok {eventType : String} (h : handle settings delivery payload eventType db = .ok (u, db')) :
    HandlerEffect settings delivery db db' := by
  unfold handle at h
  split at h
  · simp only [handleIssueStamps, Tx.bind_ok, Tx.lift_ok] at h
    obtain ⟨text, db₁, ⟨-, rfl⟩, orderId, db₂, ⟨-, rfl⟩, -, rfl⟩ := h
    exact .inl rfl
  split at h
  · exact handleAnchorBatch_ok h
  split at h
  · exact handleNotify_ok h
  split at h
  · simp only [handleMismatchReview, Tx.bind_ok, Tx.lift_ok] at h
    obtain ⟨expected, db₁, ⟨-, rfl⟩, amount, db₂, ⟨-, rfl⟩, receiptId, db₃, ⟨-, rfl⟩, hnotify⟩ := h
    exact handleNotify_ok hnotify
  split at h
  · simp only [handleTigerbeetleTransfer, Tx.bind_ok, Tx.lift_ok] at h
    obtain ⟨text, db₁, ⟨-, rfl⟩, intentId, db₂, ⟨-, rfl⟩, -, rfl⟩ := h
    exact .inl rfl
  · cases h

end Effects

end TaxStamp
