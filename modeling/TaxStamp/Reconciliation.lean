import TaxStamp.Conservation
import TaxStamp.Verification

/-!
# Reconciliation

A reconciliation recomputes the invariants of the platform from the stored rows. Each
check reports at most one finding. The checks here read the rows alone. Those of the outbox
and of the ledger intents also measure the age of rows and stand with the whole run of a
reconciliation, and the comparison with external settlements is a module of its own.
-/

namespace TaxStamp

open Lib

/-- What a check reports. -/
structure Finding where
  kind : String
  count : ℕ
  detail : JsonObject

/-- A check reports its rows when there are any. -/
def Finding.ofRows {α : Type} (kind : String) (rows : List α) (detail : List α → JsonObject) : Option Finding :=
  if rows.isEmpty then none else some ⟨kind, rows.length, detail rows⟩

/-- Journals whose debits and credits differ. -/
def unbalancedJournals (entries : List LedgerEntry) : List (Uuid × ℤ × ℤ) :=
  ((entries.map LedgerEntry.journalId).dedup.map fun journalId =>
    let postings := entries.filter fun e => e.journalId = journalId
    (journalId, journalTotal postings .debit, journalTotal postings .credit)).filter fun row => row.2.1 ≠ row.2.2

/-- Report unbalanced journals. -/
def unbalancedJournalFinding (db : Db) : Option Finding :=
  Finding.ofRows "unbalanced_journal" (unbalancedJournals db.ledgerEntries.rows) fun rows =>
    [("journals", .arr ((rows.take 20).map fun row => .str row.1.str))]

/-- The currencies in which the collections differ from what is owed. -/
def conservationMismatches : List String → Session (List Json)
  | [] => return []
  | currency :: rest => do
    let collections ← accountBalance .bankCollections currency
    let duty ← accountBalance .dutyPayable currency
    let vat ← accountBalance .vatPayable currency
    let unapplied ← accountBalance .unappliedReceipts currency
    let others ← conservationMismatches rest
    if collections.minor ≠ -duty.minor + -vat.minor + -unapplied.minor then
      return .obj [("currency", .str currency), ("collections_minor", .int collections.minor),
        ("duty_minor", .int (-duty.minor)), ("vat_minor", .int (-vat.minor)),
        ("unapplied_minor", .int (-unapplied.minor))] :: others
    else return others

/-- Collections must equal the duty and VAT recognised plus unapplied receipts. -/
def settlementConservation : Session (Option Finding) := do
  let currencies ← Tx.read fun db => (db.journals.rows.map Journal.currency).dedup
  let mismatches ← conservationMismatches currencies
  return Finding.ofRows "funds_not_conserved" mismatches fun rows => [("currencies", .arr rows)]

/-- The statuses of an order that has been paid. -/
def OrderStatus.isPaid (status : OrderStatus) : Bool := status = .paid || status = .issuing || status = .issued

/-- Report paid orders with an intent that has no exact receipt. -/
def settledOrdersWithoutMatchingReceipt (db : Db) : Option Finding :=
  let rows := db.orders.rows.flatMap fun order =>
    if order.status.isPaid then
      (db.paymentIntents.rows.filter fun intent => intent.orderId = order.id &&
        (db.paymentReceipts.rows.filter fun receipt =>
          receipt.paymentIntentId = some intent.id && receipt.status = .matched).isEmpty).map fun _ => order.orderRef
    else []
  Finding.ofRows "paid_order_without_receipt" (rows.take 50) fun rows => [("orders", .arr (rows.map .str))]

/-- Report settled intents of orders that are not paid. -/
def settledIntentsWithoutPaidOrder (db : Db) : Option Finding :=
  let rows := db.paymentIntents.rows.flatMap fun intent =>
    if intent.status = .settled then
      (db.orders.rows.filter fun order => order.id = intent.orderId && !order.status.isPaid).map fun _ =>
        intent.reference
    else []
  Finding.ofRows "settled_intent_without_paid_order" (rows.take 50) fun rows => [("references", .arr (rows.map .str))]

/-- Report batches whose count is not that of their stamps or exceeds the request. -/
def issuanceCountMismatch (db : Db) : Option Finding :=
  let rows := db.stampBatches.rows.filter fun batch =>
    batch.issuedCount ≠ stampCount db batch.id || batch.requestedCount < batch.issuedCount
  Finding.ofRows "issuance_count_mismatch" (rows.take 50) fun rows =>
    [("batches", .arr (rows.map fun batch => .obj [("batch_id", .str batch.id.str),
      ("recorded", .int batch.issuedCount), ("requested", .int batch.requestedCount),
      ("actual", .int (stampCount db batch.id))]))]

/-- Report serials that more than one stamp has. -/
def duplicateSerials (db : Db) : Option Finding :=
  let serials := db.stamps.rows.map Stamp.serial
  let rows := serials.dedup.filter fun serial => 1 < serials.count serial
  Finding.ofRows "duplicate_serial" (rows.take 50) fun rows => [("serials", .arr (rows.map .str))]

/-- An optional number as a JSON value. -/
def Json.ofSeq : Option ℕ → Json
  | none => .null
  | some seq => .int seq

/-- Report a broken audit chain. -/
def auditChain (settings : Settings) (db : Db) : Except Fault (Option Finding) := do
  let verification ← verifyAuditChain settings.crypto settings.auditChainSecret db.auditEvents.rows
  if verification.intact then return none
  else return some ⟨"audit_chain_broken", 1, [("first_bad_seq", .ofSeq verification.firstBadSeq),
    ("reason", .ofOption verification.reason), ("events_checked", .int verification.eventsChecked)]⟩

/-- Nothing is reported when there are no rows. -/
theorem Finding.ofRows_nil {α : Type} {kind : String} {rows : List α} {detail : List α → JsonObject} (h : rows = []) :
    Finding.ofRows kind rows detail = none := by
  rw [h]
  rfl

end TaxStamp
