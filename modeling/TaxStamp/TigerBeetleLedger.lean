import TaxStamp.Context
import TaxStamp.Outbox

/-!
# The TigerBeetle control subledger

A ledger intent and its outbox record are persisted first; the worker then moves the
intent through its states in separate transactions around the client calls. This module
holds the transactions; how they are sequenced around the calls is in
`TigerBeetleWorkers`.
-/

namespace TaxStamp

open Lib

/-- The actor of the relay's ledger transactions. -/
def tigerbeetleRelay : AuditActor := ⟨none, "system:tigerbeetle-relay", "operator", none⟩

/-- What the client answers to a creation. -/
inductive TigerBeetleCreateResult
  | created
  | exists
  | rejected
  deriving DecidableEq, Repr

/-- A transfer of the external ledger. -/
structure TigerBeetleTransfer where
  transferId : String
  debitAccountId : String
  creditAccountId : String
  ledgerCode : ℤ
  transferCode : ℤ
  transferFlags : ℤ
  amountMinor : ℤ
  timestamp : ℤ
  deriving DecidableEq, Repr

/-- A request to post a settled payment. -/
structure LedgerIntentRequest where
  paymentIntentId : Uuid
  tigerbeetleTransferId : String
  debitAccountId : String
  creditAccountId : String
  ledgerCode : ℤ
  transferCode : ℤ
  transferFlags : ℤ
  amountMinor : ℤ
  currency : String
  deriving DecidableEq, Repr

/-- Lower-case an identifier and refuse anything but 32 hexadecimal digits. No character outside
ASCII has a hexadecimal digit as its lower case. -/
def normaliseId (value field : String) : Except Fault String :=
  if value.toLower.length = 32 ∧ value.toLower.toList.all isLowerHex then .ok value.toLower
  else .error (.validationFailed s!"{field} must be a 32-character lowercase hexadecimal identifier")

/-- The upper case of a character where it is ASCII, or where its upper case is ASCII; the others stand for
themselves. -/
def upperAscii (c : Char) : List Char :=
  if c = 'ß' then ['S', 'S']
  else if c = 'ı' then ['I']
  else if c = 'ſ' then ['S']
  else if c = 'ﬀ' then ['F', 'F']
  else if c = 'ﬁ' then ['F', 'I']
  else if c = 'ﬂ' then ['F', 'L']
  else if c = 'ﬃ' then ['F', 'F', 'I']
  else if c = 'ﬄ' then ['F', 'F', 'L']
  else if c = 'ﬅ' ∨ c = 'ﬆ' then ['S', 'T']
  else [c.toUpper]

/-- Normalise a request and refuse one outside the ranges of the external ledger. Letters are those of ASCII, where
`str.isalpha` knows those of Unicode: a currency with one of the others is refused here, where the source goes on and
refuses it when it looks at the payment, since no stored payment has such a currency. -/
def validateRequest (request : LedgerIntentRequest) : Except Fault LedgerIntentRequest := do
  let transferId ← normaliseId request.tigerbeetleTransferId "tigerbeetle_transfer_id"
  let debit ← normaliseId request.debitAccountId "debit_account_id"
  let credit ← normaliseId request.creditAccountId "credit_account_id"
  let currency := String.ofList (request.currency.toList.flatMap upperAscii)
  if debit = credit then
    .error (.validationFailed "debit_account_id and credit_account_id must differ")
  else if request.amountMinor ≤ 0 then .error (.validationFailed "amount_minor must be positive")
  else if request.ledgerCode ≤ 0 ∨ request.ledgerCode > 4294967295 then
    .error (.validationFailed "ledger_code must be in the unsigned 32-bit range")
  else if request.transferCode < 0 ∨ request.transferCode > 65535 then
    .error (.validationFailed "transfer_code must be in the unsigned 16-bit range")
  else if request.transferFlags < 0 then .error (.validationFailed "transfer_flags must be non-negative")
  else if currency.length ≠ 3 ∨ ¬currency.toList.all Char.isAlpha then
    .error (.validationFailed "currency must be a three-letter code")
  else
    .ok
      { request with
        tigerbeetleTransferId := transferId
        debitAccountId := debit
        creditAccountId := credit
        currency := currency }

/-- The immutable material of a ledger intent. -/
def ledgerPayload (request : LedgerIntentRequest) : JsonObject :=
  [("amount_minor", .int request.amountMinor),
    ("credit_account_id", .str request.creditAccountId),
    ("currency", .str request.currency),
    ("debit_account_id", .str request.debitAccountId),
    ("ledger_code", .int request.ledgerCode),
    ("payment_intent_id", .str request.paymentIntentId.str),
    ("tigerbeetle_transfer_id", .str request.tigerbeetleTransferId),
    ("transfer_code", .int request.transferCode),
    ("transfer_flags", .int request.transferFlags)]

/-- The ledger intent of a request. -/
def newLedgerIntent (intentId : Uuid) (request : LedgerIntentRequest) (payloadHash : String) (now : Time) :
    TigerBeetleLedgerIntent where
  id := intentId
  paymentIntentId := request.paymentIntentId
  tigerbeetleTransferId := request.tigerbeetleTransferId
  debitAccountId := request.debitAccountId
  creditAccountId := request.creditAccountId
  ledgerCode := request.ledgerCode
  transferCode := request.transferCode
  transferFlags := request.transferFlags
  amountMinor := request.amountMinor
  currency := request.currency
  payloadHash := payloadHash
  state := .ready
  attemptCount := 0
  lastError := none
  externalTimestamp := none
  externalConfirmedAt := none
  postedAt := none
  updatedAt := now

/-- The ledger intent that shares the payment or the transfer of a request. -/
def findLedgerIntent (request : LedgerIntentRequest) : Session (Option TigerBeetleLedgerIntent) :=
  scalarOneOrNone Tables.tigerbeetleLedgerIntents fun i =>
    i.paymentIntentId = request.paymentIntentId || i.tigerbeetleTransferId = request.tigerbeetleTransferId

/-- The answer when an intent exists: the same intent again, or a conflict. -/
def reuseLedgerIntent (existing : TigerBeetleLedgerIntent) (payloadHash : String) :
    Session TigerBeetleLedgerIntent := do
  Tx.require (existing.payloadHash = payloadHash)
    (.conflict "existing TigerBeetle ledger intent has different immutable transfer material")
  return existing

/-- Insert a ledger intent under a savepoint; when a constraint rejects it, fall back to the intent
that is there. The result says whether it was inserted. -/
def insertLedgerIntent (request : LedgerIntentRequest) (intent : TigerBeetleLedgerIntent) :
    Session (TigerBeetleLedgerIntent × Bool) := fun db =>
  match db.tigerbeetleLedgerIntents.insert intent with
  | .ok intents => .ok ((intent, true), { db with tigerbeetleLedgerIntents := intents })
  | .error .data => .error .dataError
  | .error .integrity =>
    (do
      let found ← findLedgerIntent request
      let existing ← Tx.orRefuse found .noResultFound
      let intent ← reuseLedgerIntent existing intent.payloadHash
      return (intent, false) : Session (TigerBeetleLedgerIntent × Bool)) db

/-- Announce a new ledger intent in the outbox and the audit trail. -/
def announceLedgerIntent (settings : Settings) (draws : Draws) (actor : AuditActor)
    (intent : TigerBeetleLedgerIntent) (now : Time) : Session Unit := do
  let _ ← enqueue (.pending (draws.uuid 1) "tigerbeetle_ledger_intent" intent.id
    "tigerbeetle.transfer_requested" ("tigerbeetle-transfer:" ++ intent.tigerbeetleTransferId)
    [("intent_id", .str intent.id.str)] now)
  let _ ← recordAuditEvent settings draws (draws.uuid 2) actor
    { action := "tigerbeetle.intent.created"
      targetType := "tigerbeetle_ledger_intent"
      targetId := intent.id.str
      outcome := .success
      afterState := some [("payload_hash", .str intent.payloadHash), ("state", .str intent.state.value)] }
    now
  return ()

/-- Persist the ledger intent of a settled payment. -/
def createLedgerIntent (settings : Settings) (draws : Draws) (request : LedgerIntentRequest) (now : Time)
    (actor : AuditActor) : Session TigerBeetleLedgerIntent := do
  let checked ← Tx.lift (validateRequest request)
  let payment ← fetch Tables.paymentIntents (fun i => i.id = checked.paymentIntentId)
    (.validationFailed "payment_intent_id does not exist")
  Tx.require (payment.status = .settled)
    (.illegalState "TigerBeetle ledger intent requires a settled payment intent")
  Tx.require (payment.amountMinor = checked.amountMinor ∧ payment.currency = checked.currency)
    (.validationFailed "TigerBeetle intent must match the payment amount and currency")
  let payloadHash ← Tx.lift (canonicalHash settings.crypto (ledgerPayload checked))
  let existing ← findLedgerIntent checked
  match existing with
  | some intent => reuseLedgerIntent intent payloadHash
  | none =>
    let (intent, created) ← insertLedgerIntent checked (newLedgerIntent (draws.uuid 0) checked payloadHash now)
    if created then
      announceLedgerIntent settings draws actor intent now
      return intent
    else
      return intent

/-- The transfer that a ledger intent asks for. -/
def transferFromIntent (intent : TigerBeetleLedgerIntent) : TigerBeetleTransfer where
  transferId := intent.tigerbeetleTransferId
  debitAccountId := intent.debitAccountId
  creditAccountId := intent.creditAccountId
  ledgerCode := intent.ledgerCode
  transferCode := intent.transferCode
  transferFlags := intent.transferFlags
  amountMinor := intent.amountMinor
  timestamp := 0

/-- Whether a transfer equals an intent in all material fields. -/
def transferMatches (intent : TigerBeetleLedgerIntent) (transfer : TigerBeetleTransfer) : Bool :=
  transfer.transferId = intent.tigerbeetleTransferId &&
    transfer.debitAccountId = intent.debitAccountId &&
    transfer.creditAccountId = intent.creditAccountId &&
    transfer.ledgerCode = intent.ledgerCode &&
    transfer.transferCode = intent.transferCode &&
    transfer.transferFlags = intent.transferFlags &&
    transfer.amountMinor = intent.amountMinor

/-- Refuse a transition of a ledger intent that the table does not list. -/
def assertLedgerTransition (current target : TigerBeetleLedgerIntentState) : Session Unit :=
  Tx.require (target ∈ tigerbeetleLedgerIntentTransitions current)
    (.validationFailed
      s!"tigerbeetle_ledger_intent: illegal transition {current.value} -> {target.value}")

/-- Rewrite one ledger intent. -/
def setLedgerIntent (intentId : Uuid) (f : TigerBeetleLedgerIntent → TigerBeetleLedgerIntent) :
    Session Unit :=
  setRows Tables.tigerbeetleLedgerIntents (fun i => i.id = intentId) f

/-- The locked ledger intent with the given identifier. -/
def lockLedgerIntent (intentId : Uuid) : Session TigerBeetleLedgerIntent :=
  fetch Tables.tigerbeetleLedgerIntents (fun i => i.id = intentId) .noResultFound

/-- Record a change of state in the audit trail. -/
def recordStateAudit (settings : Settings) (draws : Draws) (intentId : Uuid)
    (state : TigerBeetleLedgerIntentState) (action : String) (now : Time) (detail : JsonObject) :
    Session Unit := do
  let _ ← recordAuditEvent settings draws (draws.uuid 0) tigerbeetleRelay
    { action := action
      targetType := "tigerbeetle_ledger_intent"
      targetId := intentId.str
      outcome := if state ≠ .quarantined then .success else .failure
      afterState := some (("state", .str state.value) :: detail) }
    now
  return ()

/-- The states in which an intent is finished. -/
def TigerBeetleLedgerIntentState.finished (state : TigerBeetleLedgerIntentState) : Prop :=
  state = .posted ∨ state = .rejected ∨ state = .quarantined

instance (state : TigerBeetleLedgerIntentState) : Decidable state.finished :=
  inferInstanceAs (Decidable (_ ∨ _ ∨ _))

namespace TigerBeetleLedgerIntent

/-- An intent with one more attempt announced. -/
def attempted (intent : TigerBeetleLedgerIntent) (now : Time) : TigerBeetleLedgerIntent :=
  { intent with
    state := if intent.state = .ready then .submissionUncertain else intent.state
    attemptCount := intent.attemptCount + 1
    lastError := none
    updatedAt := now }

/-- An intent confirmed by the transfer that was observed. -/
def confirmed (intent : TigerBeetleLedgerIntent) (timestamp : ℤ) (confirmedAt now : Time) :
    TigerBeetleLedgerIntent :=
  { intent with
    state := if intent.state = .submissionUncertain then .externalConfirmed else intent.state
    externalTimestamp := some timestamp
    externalConfirmedAt := some confirmedAt
    updatedAt := now }

/-- An intent whose observed transfer differs. -/
def quarantine (intent : TigerBeetleLedgerIntent) (now : Time) : TigerBeetleLedgerIntent :=
  { intent with
    state := .quarantined
    lastError := some "external transfer differs from immutable local intent"
    updatedAt := now }

/-- An intent finalised as posted. -/
def post (intent : TigerBeetleLedgerIntent) (postedAt now : Time) : TigerBeetleLedgerIntent :=
  { intent with state := .posted, postedAt := some postedAt, updatedAt := now }

/-- An intent the external ledger rejected. -/
def reject (intent : TigerBeetleLedgerIntent) (reason : String) (now : Time) : TigerBeetleLedgerIntent :=
  { intent with
    state := .rejected
    lastError := some (String.ofList (reason.toList.take 2000))
    updatedAt := now }

end TigerBeetleLedgerIntent

/-- Announce an attempt before any client call; a finished intent yields none. The successive
readings of the clock are an input, as in the transactions below. -/
def markSubmissionUncertain (intentId : Uuid) (clock : ℕ → Time) :
    Session (Option TigerBeetleLedgerIntent) := do
  let intent ← lockLedgerIntent intentId
  if intent.state.finished then
    return none
  else
    setLedgerIntent intentId fun i => i.attempted (clock 0)
    return some (intent.attempted (clock 0))

/-- Confirm an intent by the transfer that was observed, or quarantine it when they differ. -/
def confirmOrQuarantine (settings : Settings) (draws : Draws) (intentId : Uuid)
    (transfer : TigerBeetleTransfer) (clock : ℕ → Time) : Session Bool := do
  let intent ← lockLedgerIntent intentId
  if transferMatches intent transfer then
    setLedgerIntent intentId fun i => i.confirmed transfer.timestamp (clock 0) (clock 1)
    recordStateAudit settings draws intentId (intent.confirmed transfer.timestamp (clock 0) (clock 1)).state
      "tigerbeetle.intent.external_confirmed" (clock 2) [("external_timestamp", .int transfer.timestamp)]
    return true
  else
    assertLedgerTransition intent.state .quarantined
    setLedgerIntent intentId fun i => i.quarantine (clock 0)
    recordStateAudit settings draws intentId .quarantined "tigerbeetle.intent.quarantined" (clock 1)
      [("external_timestamp", .int transfer.timestamp)]
    return false

/-- Finalise a confirmed intent as posted. -/
def finalisePosted (settings : Settings) (draws : Draws) (intentId : Uuid) (clock : ℕ → Time) :
    Session Unit := do
  let intent ← lockLedgerIntent intentId
  if intent.state = .posted then
    return ()
  else
    assertLedgerTransition intent.state .posted
    setLedgerIntent intentId fun i => i.post (clock 0) (clock 1)
    recordStateAudit settings draws intentId .posted "tigerbeetle.intent.posted" (clock 2)
      [("external_timestamp", .int (intent.externalTimestamp.getD 0))]

/-- Record that the external ledger rejected the transfer. -/
def rejectLedgerIntent (settings : Settings) (draws : Draws) (intentId : Uuid) (reason : String)
    (clock : ℕ → Time) : Session Unit := do
  let intent ← lockLedgerIntent intentId
  assertLedgerTransition intent.state .rejected
  setLedgerIntent intentId fun i => i.reject reason (clock 0)
  recordStateAudit settings draws intentId .rejected "tigerbeetle.intent.rejected" (clock 1)
    [("reason", .str (String.ofList (reason.toList.take 500)))]

/-- Rewrite the ledger intent with an identifier. -/
def rewriteIntent (intentId : Uuid) (f : TigerBeetleLedgerIntent → TigerBeetleLedgerIntent)
    (rows : List TigerBeetleLedgerIntent) : List TigerBeetleLedgerIntent :=
  rows.map fun i => if i.id = intentId then f i else i

/-- What a committed worker transaction does to the intent it has locked: nothing, or the given
rewriting. -/
inductive WorkEffect (settings : Settings) (intentId : Uuid) (intent : TigerBeetleLedgerIntent) (db : Db) :
    Option (TigerBeetleLedgerIntent → TigerBeetleLedgerIntent) → Db → Prop
  | unchanged (hintent : intent ∈ db.tigerbeetleLedgerIntents.rows) (hid : intent.id = intentId) :
      WorkEffect settings intentId intent db none db
  | rewritten (f : TigerBeetleLedgerIntent → TigerBeetleLedgerIntent)
      (L : Table tigerbeetleLedgerIntentSchema) (A : Table auditEventSchema)
      (hintent : intent ∈ db.tigerbeetleLedgerIntents.rows) (hid : intent.id = intentId)
      (hL : L.rows = rewriteIntent intentId f db.tigerbeetleLedgerIntents.rows)
      (hA : AuditGrows settings db.auditEvents.rows A.rows) :
      WorkEffect settings intentId intent db (some f)
        (Tables.auditEvents.set A (Tables.tigerbeetleLedgerIntents.set L db))

/-- A locked intent is the one with the identifier. -/
theorem lockLedgerIntent_ok {intentId : Uuid} {intent : TigerBeetleLedgerIntent} {db db' : Db}
    (h : lockLedgerIntent intentId db = .ok (intent, db')) :
    intent ∈ db.tigerbeetleLedgerIntents.rows ∧ intent.id = intentId ∧ db = db' := by
  obtain ⟨hfilter, hdb⟩ := fetch_ok.mp h
  obtain ⟨hmem, hid⟩ := mem_of_filter_eq_singleton hfilter
  exact ⟨hmem, by simpa using hid, hdb⟩

/-- Setting an intent rewrites the table accordingly. -/
theorem setLedgerIntent_ok {intentId : Uuid} {f : TigerBeetleLedgerIntent → TigerBeetleLedgerIntent} {u : Unit}
    {db db' : Db} (h : setLedgerIntent intentId f db = .ok (u, db')) :
    ∃ L : Table tigerbeetleLedgerIntentSchema,
      L.rows = rewriteIntent intentId f db.tigerbeetleLedgerIntents.rows ∧
      db' = Tables.tigerbeetleLedgerIntents.set L db := by
  obtain ⟨L, hL, rfl⟩ := updateRows_ok.mp h
  exact ⟨L, by simpa only [rewriteIntent, decide_eq_true_eq] using hL, rfl⟩

/-- Recording a change of state touches the audit trail only. -/
theorem recordStateAudit_ok {settings : Settings} {draws : Draws} {intentId : Uuid}
    {state : TigerBeetleLedgerIntentState} {action : String} {now : Time} {detail : JsonObject} {u : Unit}
    {db db' : Db} (h : recordStateAudit settings draws intentId state action now detail db = .ok (u, db')) :
    ∃ A : Table auditEventSchema, Audited settings db.auditEvents.rows A.rows ∧
      db' = Tables.auditEvents.set A db := by
  simp only [recordStateAudit, Tx.bind_ok, Tx.pure_ok] at h
  obtain ⟨event, db₁, haudit, -, rfl⟩ := h
  exact recordAuditEvent_ok haudit

/-- An attempt is announced on an unfinished intent only; the worker gets that intent. -/
theorem markSubmissionUncertain_ok (settings : Settings) {intentId : Uuid} {clock : ℕ → Time}
    {result : Option TigerBeetleLedgerIntent} {db db' : Db}
    (h : markSubmissionUncertain intentId clock db = .ok (result, db')) :
    ∃ intent, (intent.state.finished ∧ result = none ∧ WorkEffect settings intentId intent db none db') ∨
      (¬intent.state.finished ∧ result = some (intent.attempted (clock 0)) ∧
        WorkEffect settings intentId intent db (some fun i => i.attempted (clock 0)) db') := by
  simp only [markSubmissionUncertain, Tx.bind_ok] at h
  obtain ⟨intent, db₁, hlock, hrest⟩ := h
  obtain ⟨hintent, hid, rfl⟩ := lockLedgerIntent_ok hlock
  refine ⟨intent, ?_⟩
  split at hrest
  · rename_i hfinished
    obtain ⟨rfl, rfl⟩ := Tx.pure_ok.mp hrest
    exact .inl ⟨hfinished, rfl, .unchanged hintent hid⟩
  · rename_i hfinished
    simp only [Tx.bind_ok, Tx.pure_ok] at hrest
    obtain ⟨u, db₂, hset, rfl, rfl⟩ := hrest
    obtain ⟨L, hL, rfl⟩ := setLedgerIntent_ok hset
    exact .inr ⟨hfinished, rfl, .rewritten _ L db.auditEvents hintent hid hL (.inl rfl)⟩

/-- A matching transfer confirms the intent, a differing one quarantines it where that is legal. -/
theorem confirmOrQuarantine_ok {settings : Settings} {draws : Draws} {intentId : Uuid}
    {transfer : TigerBeetleTransfer} {clock : ℕ → Time} {result : Bool} {db db' : Db}
    (h : confirmOrQuarantine settings draws intentId transfer clock db = .ok (result, db')) :
    ∃ intent, (transferMatches intent transfer = true ∧ result = true ∧ WorkEffect settings intentId intent db
        (some fun i => i.confirmed transfer.timestamp (clock 0) (clock 1)) db') ∨
      (.quarantined ∈ tigerbeetleLedgerIntentTransitions intent.state ∧ result = false ∧
        WorkEffect settings intentId intent db (some fun i => i.quarantine (clock 0)) db') := by
  simp only [confirmOrQuarantine, Tx.bind_ok] at h
  obtain ⟨intent, db₁, hlock, hrest⟩ := h
  obtain ⟨hintent, hid, rfl⟩ := lockLedgerIntent_ok hlock
  refine ⟨intent, ?_⟩
  split at hrest
  · rename_i hmatches
    simp only [Tx.bind_ok, Tx.pure_ok] at hrest
    obtain ⟨u, db₂, hset, v, db₃, haudit, rfl, rfl⟩ := hrest
    obtain ⟨L, hL, rfl⟩ := setLedgerIntent_ok hset
    obtain ⟨A, hA, rfl⟩ := recordStateAudit_ok haudit
    exact .inl ⟨hmatches, rfl, .rewritten _ L A hintent hid hL (.inr hA)⟩
  · simp only [Tx.bind_ok, assertLedgerTransition, Tx.require_ok, Tx.pure_ok] at hrest
    obtain ⟨-, db₂, ⟨hlegal, rfl⟩, u, db₃, hset, v, db₄, haudit, rfl, rfl⟩ := hrest
    obtain ⟨L, hL, rfl⟩ := setLedgerIntent_ok hset
    obtain ⟨A, hA, rfl⟩ := recordStateAudit_ok haudit
    exact .inr ⟨hlegal, rfl, .rewritten _ L A hintent hid hL (.inr hA)⟩

/-- Only a confirmed intent is posted. -/
theorem finalisePosted_ok {settings : Settings} {draws : Draws} {intentId : Uuid} {clock : ℕ → Time}
    {u : Unit} {db db' : Db} (h : finalisePosted settings draws intentId clock db = .ok (u, db')) :
    ∃ intent, (intent.state = .posted ∧ WorkEffect settings intentId intent db none db') ∨
      (.posted ∈ tigerbeetleLedgerIntentTransitions intent.state ∧
        WorkEffect settings intentId intent db (some fun i => i.post (clock 0) (clock 1)) db') := by
  simp only [finalisePosted, Tx.bind_ok] at h
  obtain ⟨intent, db₁, hlock, hrest⟩ := h
  obtain ⟨hintent, hid, rfl⟩ := lockLedgerIntent_ok hlock
  refine ⟨intent, ?_⟩
  split at hrest
  · rename_i hposted
    obtain ⟨-, rfl⟩ := Tx.pure_ok.mp hrest
    exact .inl ⟨hposted, .unchanged hintent hid⟩
  · simp only [Tx.bind_ok, assertLedgerTransition, Tx.require_ok] at hrest
    obtain ⟨-, db₂, ⟨hlegal, rfl⟩, v, db₃, hset, haudit⟩ := hrest
    obtain ⟨L, hL, rfl⟩ := setLedgerIntent_ok hset
    obtain ⟨A, hA, rfl⟩ := recordStateAudit_ok haudit
    exact .inr ⟨hlegal, .rewritten _ L A hintent hid hL (.inr hA)⟩

/-- An intent is rejected where that is legal. -/
theorem rejectLedgerIntent_ok {settings : Settings} {draws : Draws} {intentId : Uuid} {reason : String}
    {clock : ℕ → Time} {u : Unit} {db db' : Db}
    (h : rejectLedgerIntent settings draws intentId reason clock db = .ok (u, db')) :
    ∃ intent, .rejected ∈ tigerbeetleLedgerIntentTransitions intent.state ∧
      WorkEffect settings intentId intent db (some fun i => i.reject reason (clock 0)) db' := by
  simp only [rejectLedgerIntent, Tx.bind_ok, assertLedgerTransition, Tx.require_ok] at h
  obtain ⟨intent, db₁, hlock, -, db₂, ⟨hlegal, rfl⟩, v, db₃, hset, haudit⟩ := h
  obtain ⟨hintent, hid, rfl⟩ := lockLedgerIntent_ok hlock
  obtain ⟨L, hL, rfl⟩ := setLedgerIntent_ok hset
  obtain ⟨A, hA, rfl⟩ := recordStateAudit_ok haudit
  exact ⟨intent, hlegal, .rewritten _ L A hintent hid hL (.inr hA)⟩

/-- The request that asks for what an intent is for. -/
def TigerBeetleLedgerIntent.material (i : TigerBeetleLedgerIntent) : LedgerIntentRequest where
  paymentIntentId := i.paymentIntentId
  tigerbeetleTransferId := i.tigerbeetleTransferId
  debitAccountId := i.debitAccountId
  creditAccountId := i.creditAccountId
  ledgerCode := i.ledgerCode
  transferCode := i.transferCode
  transferFlags := i.transferFlags
  amountMinor := i.amountMinor
  currency := i.currency

/-- What a committed request for a ledger intent does: it reuses the intent that is there, or adds
one that is ready and carries the amount of a settled payment. -/
inductive CreateEffect (settings : Settings) (draws : Draws) (db : Db) : Db → Prop
  | reused : CreateEffect settings draws db db
  | created (intent : TigerBeetleLedgerIntent) (payment : PaymentIntent)
      (L : Table tigerbeetleLedgerIntentSchema) (M : Table outboxMessageSchema) (A : Table auditEventSchema)
      (hpayment : payment ∈ db.paymentIntents.rows) (hid : payment.id = intent.paymentIntentId)
      (hsettled : payment.status = .settled) (hamount : payment.amountMinor = intent.amountMinor)
      (hcurrency : payment.currency = intent.currency) (hready : intent.state = .ready)
      (hL : L.rows = db.tigerbeetleLedgerIntents.rows ++ [intent])
      (hM : OutboxGrows db.outboxMessages.rows M.rows)
      (hannounced : ∃ payload, Announced (draws.uuid 1) "tigerbeetle.transfer_requested"
        ("tigerbeetle-transfer:" ++ intent.tigerbeetleTransferId) payload db.outboxMessages.rows M.rows)
      (hA : Audited settings db.auditEvents.rows A.rows)
      (hhash : canonicalHash settings.crypto (ledgerPayload intent.material) = .ok intent.payloadHash) :
      CreateEffect settings draws db (Tables.auditEvents.set A (Tables.outboxMessages.set M
        (Tables.tigerbeetleLedgerIntents.set L db)))

/-- Looking for a ledger intent only reads. -/
theorem findLedgerIntent_ok {request : LedgerIntentRequest} {found : Option TigerBeetleLedgerIntent}
    {db db' : Db} (h : findLedgerIntent request db = .ok (found, db')) : db = db' := by
  cases found with
  | none => exact (selectOne_none.mp h).2
  | some intent => exact (selectOne_some.mp h).2

/-- Reusing a ledger intent only reads. -/
theorem reuseLedgerIntent_ok {existing intent : TigerBeetleLedgerIntent} {payloadHash : String} {db db' : Db}
    (h : reuseLedgerIntent existing payloadHash db = .ok (intent, db')) : db = db' := by
  simp only [reuseLedgerIntent, Tx.bind_ok, Tx.require_ok, Tx.pure_ok] at h
  obtain ⟨-, db₁, ⟨-, rfl⟩, -, rfl⟩ := h
  rfl

/-- An inserted ledger intent is appended; otherwise nothing changes. -/
theorem insertLedgerIntent_ok {request : LedgerIntentRequest} {intent result : TigerBeetleLedgerIntent}
    {created : Bool} {db db' : Db} (h : insertLedgerIntent request intent db = .ok ((result, created), db')) :
    (created = true ∧ result = intent ∧ ∃ L : Table tigerbeetleLedgerIntentSchema,
      L.rows = db.tigerbeetleLedgerIntents.rows ++ [intent] ∧ db' = Tables.tigerbeetleLedgerIntents.set L db) ∨
    (created = false ∧ db = db') := by
  unfold insertLedgerIntent at h
  split at h
  · rename_i L hinsert
    injection h with h
    injection h with hresult hdb
    injection hresult with hintent hcreated
    exact .inl ⟨hcreated.symm, hintent.symm, L, Table.insert_ok.mp hinsert, hdb.symm⟩
  · contradiction
  · simp only [Tx.bind_ok, Tx.orRefuse_ok, Tx.pure_ok] at h
    obtain ⟨found, db₁, hfind, existing, db₂, ⟨-, rfl⟩, reused, db₃, hreuse, hresult, rfl⟩ := h
    obtain rfl := findLedgerIntent_ok hfind
    obtain rfl := reuseLedgerIntent_ok hreuse
    injection hresult with _ hcreated
    exact .inr ⟨hcreated, rfl⟩

/-- Announcing a ledger intent touches the outbox and the audit trail. -/
theorem announceLedgerIntent_ok {settings : Settings} {draws : Draws} {actor : AuditActor}
    {intent : TigerBeetleLedgerIntent} {now : Time} {u : Unit} {db db' : Db}
    (h : announceLedgerIntent settings draws actor intent now db = .ok (u, db')) :
    ∃ (M : Table outboxMessageSchema) (A : Table auditEventSchema),
      (∃ payload, Announced (draws.uuid 1) "tigerbeetle.transfer_requested"
        ("tigerbeetle-transfer:" ++ intent.tigerbeetleTransferId) payload db.outboxMessages.rows M.rows) ∧
      Audited settings db.auditEvents.rows A.rows ∧
      db' = Tables.auditEvents.set A (Tables.outboxMessages.set M db) := by
  simp only [announceLedgerIntent, Tx.bind_ok, Tx.pure_ok] at h
  obtain ⟨announced, db₁, henqueue, event, db₂, haudit, -, rfl⟩ := h
  obtain ⟨M, hM, rfl⟩ := enqueue_ok henqueue
  obtain ⟨A, hA, rfl⟩ := recordAuditEvent_ok haudit
  exact ⟨M, A, ⟨_, _, _, _, hM⟩, hA, rfl⟩

/-- A committed request has that effect. -/
theorem createLedgerIntent_ok {settings : Settings} {draws : Draws} {request : LedgerIntentRequest} {now : Time}
    {actor : AuditActor} {result : TigerBeetleLedgerIntent} {db db' : Db}
    (h : createLedgerIntent settings draws request now actor db = .ok (result, db')) : CreateEffect settings draws db db' := by
  simp only [createLedgerIntent, Tx.bind_ok, Tx.lift_ok, fetch_ok, Tx.require_ok] at h
  obtain ⟨checked, db₁, ⟨-, rfl⟩, payment, db₂, ⟨hfetch, rfl⟩, -, db₃, ⟨hsettled, rfl⟩, -, db₄, ⟨hmatch, rfl⟩,
    payloadHash, db₅, ⟨hhash, rfl⟩, existing, db₆, hfind, hrest⟩ := h
  obtain rfl := findLedgerIntent_ok hfind
  obtain ⟨hpayment, hid⟩ := mem_of_filter_eq_singleton hfetch
  cases existing with
  | some intent =>
    obtain rfl := reuseLedgerIntent_ok hrest
    exact .reused
  | none =>
    simp only [Tx.bind_ok] at hrest
    obtain ⟨⟨intent, created⟩, db₇, hinsert, hrest⟩ := hrest
    rcases insertLedgerIntent_ok hinsert with ⟨rfl, rfl, L, hL, rfl⟩ | ⟨rfl, rfl⟩
    · simp only [if_true, Tx.bind_ok, Tx.pure_ok] at hrest
      obtain ⟨u, db₈, hannounce, -, rfl⟩ := hrest
      obtain ⟨M, A, ⟨payload, hM⟩, hA, rfl⟩ := announceLedgerIntent_ok hannounce
      exact .created _ payment L M A hpayment (of_decide_eq_true hid) hsettled hmatch.1 hmatch.2 rfl hL hM.grows
        ⟨payload, hM⟩ hA hhash
    · simp only [Bool.false_eq_true, if_false, Tx.pure_ok] at hrest
      obtain ⟨-, rfl⟩ := hrest
      exact .reused

/-- The transactions of a ledger worker. -/
inductive LedgerWork
  | mark (intentId : Uuid) (clock : ℕ → Time)
  | confirm (draws : Draws) (intentId : Uuid) (transfer : TigerBeetleTransfer) (clock : ℕ → Time)
  | finalise (draws : Draws) (intentId : Uuid) (clock : ℕ → Time)
  | reject (draws : Draws) (intentId : Uuid) (reason : String) (clock : ℕ → Time)

/-- The database after a ledger worker's transaction. -/
def LedgerWork.commit (settings : Settings) (db : Db) : LedgerWork → Db
  | .mark intentId clock => (markSubmissionUncertain intentId clock).commit db
  | .confirm draws intentId transfer clock =>
    (confirmOrQuarantine settings draws intentId transfer clock).commit db
  | .finalise draws intentId clock => (finalisePosted settings draws intentId clock).commit db
  | .reject draws intentId reason clock => (rejectLedgerIntent settings draws intentId reason clock).commit db

namespace TigerBeetleLedgerIntent

/-- The intent counts as transferred. -/
def Confirmed (i : TigerBeetleLedgerIntent) : Prop := i.state = .externalConfirmed ∨ i.state = .posted

/-- A later version of an intent: the material is the same and the state has taken at most an edge. -/
structure Advances (i i' : TigerBeetleLedgerIntent) : Prop where
  id : i'.id = i.id
  payment : i'.paymentIntentId = i.paymentIntentId
  transfer : transferFromIntent i' = transferFromIntent i
  state : i'.state = i.state ∨ i'.state ∈ tigerbeetleLedgerIntentTransitions i.state

/-- An intent is a version of itself. -/
theorem Advances.refl (i : TigerBeetleLedgerIntent) : i.Advances i := ⟨rfl, rfl, rfl, .inl rfl⟩

/-- Announcing an attempt on an unfinished intent takes at most the first edge. -/
theorem advances_attempted {i : TigerBeetleLedgerIntent} (now : Time) : i.Advances (i.attempted now) := by
  refine ⟨rfl, rfl, rfl, ?_⟩
  by_cases hready : i.state = .ready
  · right
    simp only [attempted, hready]
    decide
  · left
    simp only [attempted, if_neg hready]

/-- A confirmation takes at most the edge from the uncertain state. -/
theorem advances_confirmed {i : TigerBeetleLedgerIntent} (timestamp : ℤ) (confirmedAt now : Time) :
    i.Advances (i.confirmed timestamp confirmedAt now) := by
  refine ⟨rfl, rfl, rfl, ?_⟩
  by_cases huncertain : i.state = .submissionUncertain
  · right
    simp only [confirmed, huncertain]
    decide
  · left
    simp only [confirmed, if_neg huncertain]

/-- Only a confirmed intent may be posted. -/
theorem confirmed_of_posted_legal {i : TigerBeetleLedgerIntent}
    (h : .posted ∈ tigerbeetleLedgerIntentTransitions i.state) : i.Confirmed := by
  unfold Confirmed
  cases hstate : i.state <;> rw [hstate] at h
  case externalConfirmed => exact .inl rfl
  case posted => exact .inr rfl
  all_goals exact absurd h (by decide)

end TigerBeetleLedgerIntent

/-- The intent that a worker's transaction locks. -/
def LedgerWork.intentId : LedgerWork → Uuid
  | .mark intentId _ | .confirm _ intentId _ _ | .finalise _ intentId _ | .reject _ intentId _ _ => intentId

/-- The transfer that a worker's transaction rests on. -/
def LedgerWork.evidence : LedgerWork → Option TigerBeetleTransfer
  | .confirm _ _ transfer _ => some transfer
  | .mark _ _ | .finalise _ _ _ | .reject _ _ _ _ => none

/-- An intent advances on some evidence: it is newly confirmed by a matching transfer only. -/
structure AdvancesOn (evidence : Option TigerBeetleTransfer) (i i' : TigerBeetleLedgerIntent) : Prop
    extends i.Advances i' where
  confirmed : i'.Confirmed → i.Confirmed ∨ ∃ t ∈ evidence, transferMatches i' t = true

/-- A worker's transaction changes nothing or rewrites the one intent it locks. -/
def WorkOutcome (settings : Settings) (work : LedgerWork) (db db' : Db) : Prop :=
  db' = db ∨ ∃ intent f, WorkEffect settings work.intentId intent db (some f) db' ∧ AdvancesOn work.evidence intent (f intent)

open TigerBeetleLedgerIntent in
/-- Every transaction of a worker has such an outcome. -/
theorem LedgerWork.commit_outcome (settings : Settings) (db : Db) (work : LedgerWork) :
    WorkOutcome settings work db (work.commit settings db) := by
  cases work with
  | mark intentId clock =>
    refine Tx.commit_induction (WorkOutcome settings (.mark intentId clock) db) (.inl rfl) fun result db' h => ?_
    obtain ⟨intent, ⟨-, -, heffect⟩ | ⟨-, -, heffect⟩⟩ := markSubmissionUncertain_ok settings h
    · cases heffect
      exact .inl rfl
    · refine .inr ⟨intent, _, heffect, advances_attempted (clock 0), fun hconfirmed => .inl ?_⟩
      unfold Confirmed attempted at hconfirmed
      split at hconfirmed
      · rcases hconfirmed with h | h <;> cases h
      · exact hconfirmed
  | confirm draws intentId transfer clock =>
    refine Tx.commit_induction (WorkOutcome settings (.confirm draws intentId transfer clock) db) (.inl rfl)
      fun result db' h => ?_
    obtain ⟨intent, ⟨hmatches, -, heffect⟩ | ⟨hlegal, -, heffect⟩⟩ := confirmOrQuarantine_ok h
    · exact .inr ⟨intent, _, heffect, advances_confirmed transfer.timestamp (clock 0) (clock 1),
        fun _ => .inr ⟨transfer, rfl, hmatches⟩⟩
    · refine .inr ⟨intent, _, heffect, ⟨rfl, rfl, rfl, .inr hlegal⟩, fun hconfirmed => ?_⟩
      rcases hconfirmed with h | h <;> cases h
  | finalise draws intentId clock =>
    refine Tx.commit_induction (WorkOutcome settings (.finalise draws intentId clock) db) (.inl rfl) fun result db' h => ?_
    obtain ⟨intent, ⟨-, heffect⟩ | ⟨hlegal, heffect⟩⟩ := finalisePosted_ok h
    · cases heffect
      exact .inl rfl
    · exact .inr ⟨intent, _, heffect, ⟨rfl, rfl, rfl, .inr hlegal⟩, fun _ => .inl (confirmed_of_posted_legal hlegal)⟩
  | reject draws intentId reason clock =>
    refine Tx.commit_induction (WorkOutcome settings (.reject draws intentId reason clock) db) (.inl rfl)
      fun result db' h => ?_
    obtain ⟨intent, hlegal, heffect⟩ := rejectLedgerIntent_ok h
    refine .inr ⟨intent, _, heffect, ⟨rfl, rfl, rfl, .inr hlegal⟩, fun hconfirmed => ?_⟩
    rcases hconfirmed with h | h <;> cases h

/-- A worker's transaction leaves the core of the database alone. -/
theorem WorkEffect.sameCore {settings : Settings} {intentId : Uuid} {intent : TigerBeetleLedgerIntent} {db db' : Db}
    {f : Option (TigerBeetleLedgerIntent → TigerBeetleLedgerIntent)} (h : WorkEffect settings intentId intent db f db') :
    SameCore db db' := by
  cases h
  · exact .refl db
  · exact ⟨rfl, rfl, rfl, rfl, rfl, rfl, rfl, rfl, rfl, rfl, rfl, rfl⟩

/-- It leaves the outbox alone too. -/
theorem WorkEffect.outbox {settings : Settings} {intentId : Uuid} {intent : TigerBeetleLedgerIntent} {db db' : Db}
    {f : Option (TigerBeetleLedgerIntent → TigerBeetleLedgerIntent)} (h : WorkEffect settings intentId intent db f db') :
    db'.outboxMessages = db.outboxMessages := by
  cases h <;> rfl

/-- A request for a ledger intent leaves the core of the database alone. -/
theorem CreateEffect.sameCore {settings : Settings} {draws : Draws} {db db' : Db} (h : CreateEffect settings draws db db') : SameCore db db' := by
  cases h
  · exact .refl db
  · exact ⟨rfl, rfl, rfl, rfl, rfl, rfl, rfl, rfl, rfl, rfl, rfl, rfl⟩

/-- All transactions of a ledger worker leave the core alone. -/
theorem LedgerWork.sameCore (settings : Settings) (db : Db) (work : LedgerWork) :
    SameCore db (work.commit settings db) := by
  rcases work.commit_outcome settings db with hsame | ⟨intent, f, heffect, -⟩
  · rw [hsame]
    exact .refl db
  · exact heffect.sameCore

/-- They leave the outbox alone too. -/
theorem LedgerWork.outbox (settings : Settings) (db : Db) (work : LedgerWork) :
    (work.commit settings db).outboxMessages = db.outboxMessages := by
  rcases work.commit_outcome settings db with hsame | ⟨intent, f, heffect, -⟩
  · rw [hsame]
  · exact heffect.outbox

end TaxStamp
