import TaxStamp.Enums
import TaxStamp.Money
import TaxStamp.Security

/-!
# The database

One row type per table with the columns the services read or write, and the constraints
the schema declares on it: the column types, the CHECK constraints and the unique keys.
Left out are display columns no service reads, the optimistic version counters (every
service locks the rows it rewrites) and the surrogate keys of rows nothing refers to.
Foreign keys need no check of their own: every reference a service writes is to a row it
has just read or inserted, and no service deletes.
-/

namespace TaxStamp

open Lib

/-- A text that fits a `VARCHAR` column. -/
def varchar (limit : ℕ) (text : String) : Bool := text.length ≤ limit && '\x00' ∉ text.toList

/-- A document that fits a `JSONB` column. -/
def jsonb (document : Json) : Bool := !document.occurs Json.isNulText

/-- An integer that fits a `BIGINT` column. -/
def bigint (n : ℤ) : Bool := -2 ^ 63 ≤ n && n < 2 ^ 63

/-- An integer that fits an `INTEGER` column. -/
def integer (n : ℤ) : Bool := -2 ^ 31 ≤ n && n < 2 ^ 31

/-- A registered company. -/
structure Company where
  id : Uuid
  tin : String
  kybStatus : KybStatus
  riskTier : RiskTier
  deriving DecidableEq, Repr

/-- The constraints of `companies`. -/
def companySchema : Schema Company where
  fits c := varchar 32 c.tin
  check c := 8 ≤ c.tin.length
  clash a b := a.id = b.id ∨ a.tin = b.tin
  clash_comm a b := by simp only [eq_comm]

/-- An effective-dated unit price and VAT rate. -/
structure Tariff where
  id : Uuid
  productCategory : String
  unitPriceMinor : ℤ
  currency : String
  vatBps : ℤ
  effectiveFrom : Time
  effectiveTo : Option Time
  deriving DecidableEq, Repr

/-- The constraints of `tariffs`. -/
def tariffSchema : Schema Tariff where
  fits t := varchar 64 t.productCategory && bigint t.unitPriceMinor && varchar 3 t.currency &&
    integer t.vatBps
  check t := 0 < t.unitPriceMinor && 0 ≤ t.vatBps && t.vatBps ≤ 10000 &&
    t.effectiveTo.all (t.effectiveFrom < ·)
  clash a b := a.id = b.id ∨ (a.productCategory = b.productCategory ∧ a.effectiveFrom = b.effectiveFrom)
  clash_comm a b := by simp only [eq_comm]

/-- An order for stamps. -/
structure Order where
  id : Uuid
  orderRef : String
  companyId : Uuid
  submittedBy : Uuid
  productCategory : String
  quantity : ℤ
  tariffId : Uuid
  unitPriceMinor : ℤ
  subtotalMinor : ℤ
  vatBps : ℤ
  vatMinor : ℤ
  totalMinor : ℤ
  currency : String
  status : OrderStatus
  riskTier : RiskTier
  deliveryState : String
  deliveryAddress : String
  complianceEvidence : Json
  createdAt : Time
  updatedAt : Time

/-- The constraints of `orders`. -/
def orderSchema : Schema Order where
  fits o := varchar 40 o.orderRef && varchar 64 o.productCategory && bigint o.quantity &&
    bigint o.unitPriceMinor && bigint o.subtotalMinor && integer o.vatBps && bigint o.vatMinor &&
    bigint o.totalMinor && varchar 3 o.currency && varchar 64 o.deliveryState &&
    '\x00' ∉ o.deliveryAddress.toList && jsonb o.complianceEvidence
  check o := 0 < o.quantity && 0 < o.unitPriceMinor && 0 < o.subtotalMinor && 0 ≤ o.vatMinor &&
    o.subtotalMinor = o.unitPriceMinor * o.quantity && o.totalMinor = o.subtotalMinor + o.vatMinor
  clash a b := a.id = b.id ∨ a.orderRef = b.orderRef
  clash_comm a b := by simp only [eq_comm]

/-- One entry of the append-only order history. -/
structure OrderTransition where
  orderId : Uuid
  fromStatus : Option OrderStatus
  toStatus : OrderStatus
  actorPrincipalId : Option Uuid
  reason : String
  createdAt : Time
  deriving DecidableEq, Repr

/-- The constraints of `order_transitions`. -/
def orderTransitionSchema : Schema OrderTransition where
  fits t := varchar 500 t.reason
  check _ := true
  clash _ _ := false
  clash_comm _ _ := rfl

/-- A maker-checker approval. -/
structure Approval where
  orderId : Uuid
  level : ApprovalLevel
  decision : ApprovalDecision
  actorPrincipalId : Uuid
  reason : String
  createdAt : Time
  deriving DecidableEq, Repr

/-- The constraints of `approvals`. -/
def approvalSchema : Schema Approval where
  fits a := varchar 500 a.reason
  check _ := true
  clash a b := a.orderId = b.orderId ∧ a.level = b.level
  clash_comm a b := by simp only [eq_comm]

/-- The payment an approved order awaits. -/
structure PaymentIntent where
  id : Uuid
  orderId : Uuid
  reference : String
  amountMinor : ℤ
  currency : String
  status : PaymentIntentStatus
  createdAt : Time
  settledAt : Option Time
  deriving DecidableEq, Repr

/-- The constraints of `payment_intents`. -/
def paymentIntentSchema : Schema PaymentIntent where
  fits i := varchar 40 i.reference && bigint i.amountMinor && varchar 3 i.currency
  check i := 0 < i.amountMinor
  clash a b := a.id = b.id ∨ a.orderId = b.orderId ∨ a.reference = b.reference
  clash_comm a b := by simp only [eq_comm]

/-- A remittance advice ingested from the collecting bank. -/
structure PaymentReceipt where
  id : Uuid
  externalReference : String
  paymentIntentId : Option Uuid
  declaredReference : String
  amountMinor : ℤ
  currency : String
  status : ReceiptStatus
  payloadHash : String
  valueDate : Time
  ingestedAt : Time
  deriving DecidableEq, Repr

/-- The constraints of `payment_receipts`. -/
def paymentReceiptSchema : Schema PaymentReceipt where
  fits r := varchar 128 r.externalReference && varchar 64 r.declaredReference && bigint r.amountMinor &&
    varchar 3 r.currency && varchar 64 r.payloadHash
  check r := 0 < r.amountMinor
  clash a b := a.id = b.id ∨ a.externalReference = b.externalReference
  clash_comm a b := by simp only [eq_comm]

/-- What a journal records. -/
inductive JournalKind
  | dutySettlement
  | unappliedReceipt
  deriving DecidableEq, Repr

/-- A double-entry journal. -/
structure Journal where
  id : Uuid
  reference : String
  kind : JournalKind
  currency : String
  orderId : Option Uuid
  paymentReceiptId : Option Uuid
  createdAt : Time
  deriving DecidableEq, Repr

/-- The constraints of `journals`. -/
def journalSchema : Schema Journal where
  fits j := varchar 128 j.reference && varchar 3 j.currency
  check _ := true
  clash a b := a.id = b.id ∨ a.reference = b.reference
  clash_comm a b := by simp only [eq_comm]

/-- An account of the ledger, by its text. -/
structure Account where
  text : String
  deriving DecidableEq, Repr

namespace Account

/-- Collections at the bank, an asset. -/
def bankCollections : Account := ⟨"asset:bank_collections"⟩

/-- Duty payable, a liability. -/
def dutyPayable : Account := ⟨"liability:duty_payable"⟩

/-- Value added tax payable, a liability. -/
def vatPayable : Account := ⟨"liability:vat_payable"⟩

/-- Receipts that could not be applied, a liability. -/
def unappliedReceipts : Account := ⟨"liability:unapplied_receipts"⟩

/-- Revenue from excise duty. -/
def dutyRevenue : Account := ⟨"revenue:excise_duty"⟩

end Account

/-- The side of a posting. -/
inductive Direction
  | debit
  | credit
  deriving DecidableEq, Repr

/-- One line of a journal. -/
structure LedgerEntry where
  journalId : Uuid
  account : Account
  direction : Direction
  amountMinor : ℤ
  currency : String
  createdAt : Time
  deriving DecidableEq, Repr

/-- The constraints of `ledger_entries`. -/
def ledgerEntrySchema : Schema LedgerEntry where
  fits e := varchar 64 e.account.text && bigint e.amountMinor && varchar 3 e.currency
  check e := 0 < e.amountMinor
  clash _ _ := false
  clash_comm _ _ := rfl

/-- The serial allocator of a category and year. -/
structure SerialCounter where
  productCategory : String
  year : ℤ
  nextValue : ℤ
  deriving DecidableEq, Repr

/-- The constraints of `serial_counters`. -/
def serialCounterSchema : Schema SerialCounter where
  fits c := varchar 64 c.productCategory && integer c.year && bigint c.nextValue
  check c := 1 ≤ c.nextValue
  clash a b := a.productCategory = b.productCategory ∧ a.year = b.year
  clash_comm a b := by simp only [eq_comm]

/-- The batch of stamps of one order. -/
structure StampBatch where
  id : Uuid
  orderId : Uuid
  requestedCount : ℤ
  issuedCount : ℤ
  status : BatchStatus
  createdAt : Time
  completedAt : Option Time
  deriving DecidableEq, Repr

/-- The constraints of `stamp_batches`. -/
def stampBatchSchema : Schema StampBatch where
  fits b := bigint b.requestedCount && bigint b.issuedCount
  check b := 0 < b.requestedCount && 0 ≤ b.issuedCount && b.issuedCount ≤ b.requestedCount
  clash a b := a.id = b.id ∨ a.orderId = b.orderId
  clash_comm a b := by simp only [eq_comm]

/-- An issued stamp. -/
structure Stamp where
  id : Uuid
  serial : String
  batchId : Uuid
  orderId : Uuid
  companyId : Uuid
  productCategory : String
  status : StampStatus
  secureCodeHash : String
  issuedAt : Time
  activatedAt : Option Time
  voidedAt : Option Time
  expiresAt : Time
  deriving DecidableEq, Repr

/-- The constraints of `stamps`. -/
def stampSchema : Schema Stamp where
  fits s := varchar 64 s.serial && varchar 64 s.productCategory && varchar 64 s.secureCodeHash
  check s := (s.status ≠ .active || s.activatedAt.isSome) && (s.status ≠ .void || s.voidedAt.isSome)
  clash a b := a.id = b.id ∨ a.serial = b.serial
  clash_comm a b := by simp only [eq_comm]

/-- What happened to a stamp. -/
inductive StampEventType
  | activated
  | voided
  | expired
  deriving DecidableEq, Repr

/-- One entry of the append-only stamp history. -/
structure StampEvent where
  stampId : Uuid
  eventType : StampEventType
  actorPrincipalId : Option Uuid
  context : JsonObject
  createdAt : Time

/-- The constraints of `stamp_events`. -/
def stampEventSchema : Schema StampEvent where
  fits e := jsonb (.obj e.context)
  check _ := true
  clash _ _ := false
  clash_comm _ _ := rfl

/-- A quality inspection of an issued batch. -/
structure Inspection where
  id : Uuid
  batchId : Uuid
  lotSize : ℤ
  sampleSize : ℤ
  acceptNumber : ℤ
  rejectNumber : ℤ
  defectsFound : ℤ
  accepted : Bool
  inspectorPrincipalId : Uuid
  defectiveSerials : List String
  createdAt : Time
  deriving DecidableEq, Repr

/-- The constraints of `inspections`. -/
def inspectionSchema : Schema Inspection where
  fits i := bigint i.lotSize && integer i.sampleSize && integer i.acceptNumber && integer i.rejectNumber &&
    integer i.defectsFound && i.defectiveSerials.all ('\x00' ∉ ·.toList)
  check i := 0 < i.sampleSize && i.sampleSize ≤ i.lotSize && 0 ≤ i.defectsFound
  clash a b := a.id = b.id ∨ a.batchId = b.batchId
  clash_comm a b := by simp only [eq_comm]

/-- A side effect to be relayed. -/
structure OutboxMessage where
  id : Uuid
  aggregateType : String
  aggregateId : Uuid
  eventType : String
  dedupeKey : String
  payload : JsonObject
  availableAt : Time
  attempts : ℤ
  lockedBy : Option String
  lockedUntil : Option Time
  processedAt : Option Time
  deadLetteredAt : Option Time
  lastError : Option String

/-- The constraints of `outbox_messages`. -/
def outboxMessageSchema : Schema OutboxMessage where
  fits m := varchar 64 m.aggregateType && varchar 64 m.eventType && varchar 200 m.dedupeKey &&
    jsonb (.obj m.payload) && integer m.attempts && m.lockedBy.all (varchar 64) &&
    m.lastError.all ('\x00' ∉ ·.toList)
  check _ := true
  clash a b := a.id = b.id ∨ a.dedupeKey = b.dedupeKey
  clash_comm a b := by simp only [eq_comm]

/-- The recorded outcome of an audited action. -/
inductive AuditOutcome
  | success
  | failure
  | denied
  deriving DecidableEq, Repr

/-- The stored text of an audit outcome. -/
def AuditOutcome.value : AuditOutcome → String
  | success => "success"
  | failure => "failure"
  | denied => "denied"

/-- An entry of the tamper-evident audit trail. -/
structure AuditEvent where
  seq : ℕ
  eventId : Uuid
  occurredAt : Time
  actorPrincipalId : Option Uuid
  actorSubject : String
  actorRole : String
  companyId : Option Uuid
  action : String
  targetType : String
  targetId : String
  outcome : AuditOutcome
  requestId : Option String
  idempotencyKey : Option String
  beforeState : Option JsonObject
  afterState : Option JsonObject
  revision : String
  prevHash : String
  hash : String

/-- The constraints of `audit_events`. -/
def auditEventSchema : Schema AuditEvent where
  fits e := varchar 128 e.actorSubject && varchar 32 e.actorRole && varchar 64 e.action &&
    varchar 64 e.targetType && varchar 128 e.targetId && e.requestId.all (varchar 64) &&
    e.idempotencyKey.all (varchar 128) && e.beforeState.all (jsonb <| .obj ·) &&
    e.afterState.all (jsonb <| .obj ·) && varchar 64 e.revision && varchar 64 e.prevHash && varchar 64 e.hash
  check _ := true
  clash a b := a.seq = b.seq ∨ a.eventId = b.eventId ∨ a.hash = b.hash
  clash_comm a b := by simp only [eq_comm]

/-- A lower-case hexadecimal digit. -/
def isLowerHex (c : Char) : Bool := ('0' ≤ c && c ≤ '9') || ('a' ≤ c && c ≤ 'f')

/-- A text of the given number of lower-case hexadecimal digits. -/
def lowerHex (length : ℕ) (text : String) : Bool := text.length = length && text.toList.all isLowerHex

/-- The durable local intent of one TigerBeetle transfer. -/
structure TigerBeetleLedgerIntent where
  id : Uuid
  paymentIntentId : Uuid
  tigerbeetleTransferId : String
  debitAccountId : String
  creditAccountId : String
  ledgerCode : ℤ
  transferCode : ℤ
  transferFlags : ℤ
  amountMinor : ℤ
  currency : String
  payloadHash : String
  state : TigerBeetleLedgerIntentState
  attemptCount : ℤ
  lastError : Option String
  externalTimestamp : Option ℤ
  externalConfirmedAt : Option Time
  postedAt : Option Time
  updatedAt : Time
  deriving DecidableEq, Repr

/-- The constraints of `tigerbeetle_ledger_intents`. -/
def tigerbeetleLedgerIntentSchema : Schema TigerBeetleLedgerIntent where
  fits i := bigint i.ledgerCode && integer i.transferCode && bigint i.transferFlags &&
    bigint i.amountMinor && integer i.attemptCount && i.externalTimestamp.all bigint &&
    varchar 3 i.currency && i.lastError.all ('\x00' ∉ ·.toList)
  check i := 0 < i.amountMinor && i.debitAccountId ≠ i.creditAccountId && 0 < i.ledgerCode &&
    i.ledgerCode ≤ 4294967295 && 0 ≤ i.transferCode && i.transferCode ≤ 65535 && 0 ≤ i.transferFlags &&
    0 ≤ i.attemptCount && i.currency.length = 3 && i.currency = i.currency.toUpper &&
    lowerHex 32 i.tigerbeetleTransferId && lowerHex 32 i.debitAccountId &&
    lowerHex 32 i.creditAccountId && lowerHex 64 i.payloadHash
  clash a b := a.id = b.id ∨ a.paymentIntentId = b.paymentIntentId ∨
    a.tigerbeetleTransferId = b.tigerbeetleTransferId
  clash_comm a b := by simp only [eq_comm]

/-- The content of the database. -/
structure Db where
  companies : Table companySchema
  tariffs : Table tariffSchema
  orders : Table orderSchema
  orderTransitions : Table orderTransitionSchema
  approvals : Table approvalSchema
  paymentIntents : Table paymentIntentSchema
  paymentReceipts : Table paymentReceiptSchema
  journals : Table journalSchema
  ledgerEntries : Table ledgerEntrySchema
  serialCounters : Table serialCounterSchema
  stampBatches : Table stampBatchSchema
  stamps : Table stampSchema
  stampEvents : Table stampEventSchema
  inspections : Table inspectionSchema
  outboxMessages : Table outboxMessageSchema
  auditEvents : Table auditEventSchema
  tigerbeetleLedgerIntents : Table tigerbeetleLedgerIntentSchema

/-- A platform with reference data only. -/
def Db.initial (companies : Table companySchema) (tariffs : Table tariffSchema) : Db where
  companies := companies
  tariffs := tariffs
  orders := .empty _
  orderTransitions := .empty _
  approvals := .empty _
  paymentIntents := .empty _
  paymentReceipts := .empty _
  journals := .empty _
  ledgerEntries := .empty _
  serialCounters := .empty _
  stampBatches := .empty _
  stamps := .empty _
  stampEvents := .empty _
  inspections := .empty _
  outboxMessages := .empty _
  auditEvents := .empty _
  tigerbeetleLedgerIntents := .empty _

/-- Two databases that agree on everything but the audit trail, the outbox and the ledger intents. -/
structure SameCore (db db' : Db) : Prop where
  orders : db'.orders = db.orders
  orderTransitions : db'.orderTransitions = db.orderTransitions
  approvals : db'.approvals = db.approvals
  paymentIntents : db'.paymentIntents = db.paymentIntents
  paymentReceipts : db'.paymentReceipts = db.paymentReceipts
  journals : db'.journals = db.journals
  ledgerEntries : db'.ledgerEntries = db.ledgerEntries
  serialCounters : db'.serialCounters = db.serialCounters
  stampBatches : db'.stampBatches = db.stampBatches
  stamps : db'.stamps = db.stamps
  stampEvents : db'.stampEvents = db.stampEvents
  inspections : db'.inspections = db.inspections

/-- A database agrees with itself. -/
theorem SameCore.refl (db : Db) : SameCore db db :=
  ⟨rfl, rfl, rfl, rfl, rfl, rfl, rfl, rfl, rfl, rfl, rfl, rfl⟩

/-- A unit of work on the database. -/
abbrev Session (α : Type) : Type := Tx Db Fault α

namespace Tables

/-- Access to `companies`. -/
@[simp, reducible] def companies : Field Db (Table companySchema) := ⟨Db.companies, fun t db => { db with companies := t }⟩

/-- Access to `tariffs`. -/
@[simp, reducible] def tariffs : Field Db (Table tariffSchema) := ⟨Db.tariffs, fun t db => { db with tariffs := t }⟩

/-- Access to `orders`. -/
@[simp, reducible] def orders : Field Db (Table orderSchema) := ⟨Db.orders, fun t db => { db with orders := t }⟩

/-- Access to `order_transitions`. -/
@[simp, reducible] def orderTransitions : Field Db (Table orderTransitionSchema) :=
  ⟨Db.orderTransitions, fun t db => { db with orderTransitions := t }⟩

/-- Access to `approvals`. -/
@[simp, reducible] def approvals : Field Db (Table approvalSchema) := ⟨Db.approvals, fun t db => { db with approvals := t }⟩

/-- Access to `payment_intents`. -/
@[simp, reducible] def paymentIntents : Field Db (Table paymentIntentSchema) :=
  ⟨Db.paymentIntents, fun t db => { db with paymentIntents := t }⟩

/-- Access to `payment_receipts`. -/
@[simp, reducible] def paymentReceipts : Field Db (Table paymentReceiptSchema) :=
  ⟨Db.paymentReceipts, fun t db => { db with paymentReceipts := t }⟩

/-- Access to `journals`. -/
@[simp, reducible] def journals : Field Db (Table journalSchema) := ⟨Db.journals, fun t db => { db with journals := t }⟩

/-- Access to `ledger_entries`. -/
@[simp, reducible] def ledgerEntries : Field Db (Table ledgerEntrySchema) :=
  ⟨Db.ledgerEntries, fun t db => { db with ledgerEntries := t }⟩

/-- Access to `serial_counters`. -/
@[simp, reducible] def serialCounters : Field Db (Table serialCounterSchema) :=
  ⟨Db.serialCounters, fun t db => { db with serialCounters := t }⟩

/-- Access to `stamp_batches`. -/
@[simp, reducible] def stampBatches : Field Db (Table stampBatchSchema) :=
  ⟨Db.stampBatches, fun t db => { db with stampBatches := t }⟩

/-- Access to `stamps`. -/
@[simp, reducible] def stamps : Field Db (Table stampSchema) := ⟨Db.stamps, fun t db => { db with stamps := t }⟩

/-- Access to `stamp_events`. -/
@[simp, reducible] def stampEvents : Field Db (Table stampEventSchema) :=
  ⟨Db.stampEvents, fun t db => { db with stampEvents := t }⟩

/-- Access to `inspections`. -/
@[simp, reducible] def inspections : Field Db (Table inspectionSchema) :=
  ⟨Db.inspections, fun t db => { db with inspections := t }⟩

/-- Access to `outbox_messages`. -/
@[simp, reducible] def outboxMessages : Field Db (Table outboxMessageSchema) :=
  ⟨Db.outboxMessages, fun t db => { db with outboxMessages := t }⟩

/-- Access to `audit_events`. -/
@[simp, reducible] def auditEvents : Field Db (Table auditEventSchema) :=
  ⟨Db.auditEvents, fun t db => { db with auditEvents := t }⟩

/-- Access to `tigerbeetle_ledger_intents`. -/
@[simp, reducible] def tigerbeetleLedgerIntents : Field Db (Table tigerbeetleLedgerIntentSchema) :=
  ⟨Db.tigerbeetleLedgerIntents, fun t db => { db with tigerbeetleLedgerIntents := t }⟩

end Tables

section Session

variable {α : Type} {S : Schema α} (F : Field Db (Table S))

/-- `session.add` followed by a flush. -/
abbrev addRow (row : α) : Session Unit := insertRow F Fault.ofRejection row

/-- Several rows in one statement. -/
abbrev addRows (rows : List α) : Session Unit := insertRows F Fault.ofRejection rows

/-- Assign to the columns of the selected rows. -/
abbrev setRows (p : α → Bool) (f : α → α) : Session Unit := updateRows F Fault.ofRejection p f

/-- `scalar_one_or_none`. -/
abbrev scalarOneOrNone (p : α → Bool) : Session (Option α) := selectOne F .multipleResultsFound p

/-- The only row that satisfies the condition, refusing with the given fault when there is none. -/
def fetch (p : α → Bool) (absent : Fault) : Session α := do
  let found ← scalarOneOrNone F p
  Tx.orRefuse found absent

/-- A fetched row is the only one that satisfies the condition. -/
@[simp] theorem fetch_ok {F : Field Db (Table S)} {p : α → Bool} {absent : Fault} {row : α} {db db' : Db} :
    fetch F p absent db = .ok (row, db') ↔ (F.get db).rows.filter p = [row] ∧ db = db' := by
  unfold fetch
  rw [Tx.bind_ok]
  constructor
  · rintro ⟨found, s', hfound, h⟩
    obtain ⟨rfl, rfl⟩ := Tx.orRefuse_ok.mp h
    exact selectOne_some.mp hfound
  · intro h
    exact ⟨some row, db', selectOne_some.mpr h, Tx.orRefuse_ok.mpr ⟨rfl, rfl⟩⟩

end Session

end TaxStamp
